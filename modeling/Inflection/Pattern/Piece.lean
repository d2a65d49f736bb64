import Inflection.Name
import Inflection.Text.Split

/-!
# Pieces of a text

A raw pattern is the mark, the text of its kinds, and one or more bodies in braces.  `cut` divides
a text into consecutive pieces, each in order of preference an escape before a raw pattern, a raw
pattern, or a single character.

`text_cut` says that the pieces written one after the other are the text again.
-/

namespace Inflection

/-! ## Raw patterns -/

/-- A pattern as it stands in a text, with all bodies that directly follow one another. -/
structure RawPattern where
  kinds : List Char
  bodies : List (List Char)
deriving DecidableEq, Repr

namespace RawPattern

/-- A body in its braces. -/
def braced (body : List Char) : List Char := '{' :: (body ++ ['}'])

/-- The raw pattern as it is written. -/
def text (raw : RawPattern) : List Char := mark :: (raw.kinds ++ raw.bodies.flatMap braced)

/-- Whether a character may stand between the mark and the first body. -/
def isKindsChar (c : Char) : Bool :=
  !(c == '{' || c == '}' || c == mark || c == '|' || Text.isBlank c)

/-- Reads a body, which holds at least one character and no closing brace. -/
def readBody : List Char → Option (List Char × List Char)
  | '{' :: cs =>
    match Text.splitFirst '}' cs with
    | some (c :: body, rest) => some (c :: body, rest)
    | _ => none
  | _ => none

theorem readBody_eq_some_iff {cs body rest : List Char} :
    readBody cs = some (body, rest) ↔ cs = braced body ++ rest ∧ body ≠ [] ∧ '}' ∉ body := by
  constructor
  · intro h
    unfold readBody at h
    split at h
    · split at h
      · rename_i hs
        obtain ⟨rfl, rfl⟩ := Prod.mk.inj (Option.some.inj h)
        obtain ⟨rfl, hmem⟩ := Text.splitFirst_eq_some_iff.1 hs
        exact ⟨by simp [braced], List.cons_ne_nil _ _, hmem⟩
      · cases h
    · cases h
  · rintro ⟨rfl, hne, hmem⟩
    have hs : Text.splitFirst '}' (body ++ '}' :: rest) = some (body, rest) :=
      Text.splitFirst_append hmem
    cases body with
    | nil => exact absurd rfl hne
    | cons c body =>
      rw [List.cons_append] at hs
      simp [readBody, braced, hs]

theorem length_lt_of_readBody {cs body rest : List Char} (h : readBody cs = some (body, rest)) :
    rest.length < cs.length := by
  rw [(readBody_eq_some_iff.1 h).1]
  simp [braced]
  omega

/-- Reads all bodies that directly follow one another. -/
def readBodies (cs : List Char) : List (List Char) × List Char :=
  match _h : readBody cs with
  | some (body, rest) =>
    let (bodies, rest) := readBodies rest
    (body :: bodies, rest)
  | none => ([], cs)
termination_by cs.length
decreasing_by exact length_lt_of_readBody _h

theorem readBodies_of_some {cs body rest : List Char} (h : readBody cs = some (body, rest)) :
    readBodies cs = (body :: (readBodies rest).1, (readBodies rest).2) := by
  rw [readBodies]
  split
  · rename_i h'
    obtain ⟨rfl, rfl⟩ := Prod.mk.inj (Option.some.inj (h.symm.trans h'))
    rfl
  · rename_i h'
    cases h.symm.trans h'

theorem readBodies_of_none {cs : List Char} (h : readBody cs = none) :
    readBodies cs = ([], cs) := by
  rw [readBodies]
  split
  · rename_i h'
    cases h.symm.trans h'
  · rfl

theorem flatMap_readBodies (cs : List Char) :
    (readBodies cs).1.flatMap braced ++ (readBodies cs).2 = cs := by
  induction hn : cs.length using Nat.strongRecOn generalizing cs with
  | ind n ih =>
    cases h : readBody cs with
    | none => simp [readBodies_of_none h]
    | some p =>
      have hcs := (readBody_eq_some_iff.1 h).1
      have := ih p.2.length (hn ▸ length_lt_of_readBody h) p.2 rfl
      rw [readBodies_of_some h, List.flatMap_cons, List.append_assoc, this, ← hcs]

/-- Reads a raw pattern at the start of a text. -/
def read : List Char → Option (RawPattern × List Char)
  | '@' :: cs =>
    match readBodies (cs.dropWhile isKindsChar) with
    | ([], _) => none
    | (bodies, rest) => some (⟨cs.takeWhile isKindsChar, bodies⟩, rest)
  | _ => none

theorem text_append_of_read {cs rest : List Char} {raw : RawPattern}
    (h : read cs = some (raw, rest)) : raw.text ++ rest = cs := by
  unfold read at h
  split at h
  · rename_i cs'
    have hb := flatMap_readBodies (cs'.dropWhile isKindsChar)
    split at h
    · cases h
    · rename_i bodies rest' _ hr
      obtain ⟨rfl, rfl⟩ := Prod.mk.inj (Option.some.inj h)
      rw [hr] at hb
      simp only [text, List.cons_append, List.append_assoc, hb, List.takeWhile_append_dropWhile]
      rfl
  · cases h

theorem length_lt_of_read {cs rest : List Char} {raw : RawPattern}
    (h : read cs = some (raw, rest)) : rest.length < cs.length := by
  rw [← text_append_of_read h]
  simp [text]
  omega

end RawPattern

/-! ## Pieces -/

/-- A piece of a text. -/
inductive Piece where
  | escaped (escape : Char) (raw : RawPattern)
  | pattern (raw : RawPattern)
  | char (c : Char)
deriving DecidableEq, Repr

namespace Piece

/-- The piece as it is written. -/
def text : Piece → List Char
  | escaped c raw => c :: raw.text
  | pattern raw => raw.text
  | char c => [c]

/-- Whether a character right before a raw pattern makes it literal text. -/
def isEscape (c : Char) : Bool := c == mark || c == '\\'

/-- The first piece of a text, given by its first character and the others. -/
def next (c : Char) (cs : List Char) : Piece × List Char :=
  match if isEscape c then RawPattern.read cs else none with
  | some (raw, rest) => (escaped c raw, rest)
  | none =>
    match RawPattern.read (c :: cs) with
    | some (raw, rest) => (pattern raw, rest)
    | none => (char c, cs)

theorem text_append_next (c : Char) (cs : List Char) :
    (next c cs).1.text ++ (next c cs).2 = c :: cs := by
  unfold next
  split
  · rename_i raw rest h
    split at h
    · simp [text, RawPattern.text_append_of_read h]
    · cases h
  · split
    · rename_i h
      simpa [text] using RawPattern.text_append_of_read h
    · rfl

theorem length_next_le (c : Char) (cs : List Char) : (next c cs).2.length ≤ cs.length := by
  unfold next
  split
  · rename_i raw rest h
    split at h
    · exact Nat.le_of_lt (RawPattern.length_lt_of_read h)
    · cases h
  · split
    · rename_i h
      exact Nat.le_of_lt_succ (RawPattern.length_lt_of_read h)
    · exact Nat.le_refl _

/-- Divides a text into consecutive pieces. -/
def cut : List Char → List Piece
  | [] => []
  | c :: cs => (next c cs).1 :: cut (next c cs).2
termination_by cs => cs.length
decreasing_by exact Nat.lt_succ_of_le (length_next_le c cs)

@[simp] theorem cut_nil : cut [] = [] := by rw [cut]

theorem cut_cons (c : Char) (cs : List Char) :
    cut (c :: cs) = (next c cs).1 :: cut (next c cs).2 := by rw [cut]

/-- The pieces of a text, written one after the other, are the text. -/
theorem text_cut (cs : List Char) : (cut cs).flatMap text = cs := by
  fun_induction cut cs with
  | case1 => rfl
  | case2 c cs ih => rw [List.flatMap_cons, ih, text_append_next]

end Piece

end Inflection
