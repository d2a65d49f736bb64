import Inflection.Text.Basic

/-!
# Names of kinds and tokens

A name is a non-empty text without blanks and without the characters that the notation of
patterns reserves.  One valid name, `defaultName`, is kept out of the tokens: in a configuration
it holds the default of its kind.
-/

namespace Inflection

/-- The characters with a meaning of their own in patterns, which no name holds. -/
def reservedChars : List Char := ['+', '|', ':', '!', '@', '{', '}', ',', '\\', '~']

/-- Whether a character may be part of a name. -/
def isNameChar (c : Char) : Bool := !Text.isBlank c && !reservedChars.contains c

/-- Whether a text is the name of a kind or a token. -/
def isName (s : String) : Bool := s != "" && s.toList.all isNameChar

/-- The entry of a configured kind that holds its default. -/
def defaultName : String := "default"

/-- The mark before the name of a kind whose tokens have a namespace of their own, before the
token that an alias points at, and before a pattern. -/
def mark : Char := '@'

/-- A text with its leading mark, if any, taken off. -/
def stripMark (s : String) : String :=
  match s.toList with
  | '@' :: cs => String.ofList cs
  | _ => s

/-- Whether a text begins with the mark. -/
def isMarked (s : String) : Bool := s.toList.head? == some mark

/-- A text with the mark put before it. -/
def putMark (s : String) : String := String.ofList (mark :: s.toList)

@[simp] theorem stripMark_putMark (s : String) : stripMark (putMark s) = s := by
  simp [stripMark, putMark, mark]

@[simp] theorem isMarked_putMark (s : String) : isMarked (putMark s) := by
  simp [isMarked, putMark]

theorem stripMark_of_not_isMarked {s : String} (h : isMarked s = false) : stripMark s = s := by
  unfold stripMark
  split
  · rename_i cs hs
    simp [isMarked, hs, mark] at h
  · rfl

theorem putMark_stripMark {s : String} (h : isMarked s) : putMark (stripMark s) = s := by
  rw [isMarked, beq_iff_eq] at h
  obtain ⟨cs, hs⟩ := List.head?_eq_some_iff.1 h
  have hstrip : stripMark s = String.ofList cs := by
    rw [stripMark, hs]
    rfl
  rw [putMark, hstrip, String.toList_ofList, ← hs, String.ofList_toList]

theorem ne_empty_of_isName {s : String} (h : isName s) : s ≠ "" := by
  rintro rfl
  cases h

theorem not_isMarked_of_isName {s : String} (h : isName s) : isMarked s = false := by
  simp only [isName, Bool.and_eq_true] at h
  cases hs : s.toList with
  | nil => simp [isMarked, hs]
  | cons c cs =>
    have hc : isNameChar c := by
      have := h.2
      rw [hs, List.all_cons, Bool.and_eq_true] at this
      exact this.1
    have hne : c ≠ mark := by
      rintro rfl
      exact absurd hc (by decide)
    simp [isMarked, hs, hne]

end Inflection
