import Inflection.Pattern.Scan

/-!
# The grammar of texts

What a raw pattern is, and how a text is cut into pieces, said without reading it:
`RawPattern.Begins` says that a text begins with a raw pattern, and `Piece.Cuts` that some pieces
are its cut.  At each place an escaped raw pattern comes before a raw pattern, and that before a
single character.

## Main statements

* `RawPattern.read_eq_some_iff`: what is read at the start of a text is the raw pattern that it
  begins with.
* `Piece.cuts_cut`, `Piece.Cuts.eq_cut`: what a text is cut into is a cut of it, and the only one.
-/

namespace Inflection

/-! ## Raw patterns -/

namespace RawPattern

/-- A body holds at least one character and no closing brace. -/
def IsBody (body : List Char) : Prop := body ≠ [] ∧ '}' ∉ body

/-- A raw pattern of the grammar. -/
structure WellFormed (raw : RawPattern) : Prop where
  kinds : ∀ c ∈ raw.kinds, c ∉ ['{', '}', '@', '|'] ∧ Text.isBlank c = false
  bodies : raw.bodies ≠ []
  isBody : ∀ body ∈ raw.bodies, IsBody body

/-- No body stands at the start of a text. -/
def Ends (rest : List Char) : Prop := ∀ body rest', IsBody body → rest ≠ braced body ++ rest'

/-- A text begins with a raw pattern, which takes all bodies that directly follow one another. -/
structure Begins (cs : List Char) (raw : RawPattern) (rest : List Char) : Prop where
  wellFormed : raw.WellFormed
  eq_append : cs = raw.text ++ rest
  ends : Ends rest

theorem Begins.head?_eq {cs rest : List Char} {raw : RawPattern} (h : Begins cs raw rest) :
    cs.head? = some '@' := by
  rw [h.eq_append]
  rfl

theorem isKindsChar_iff {c : Char} :
    isKindsChar c ↔ c ∉ ['{', '}', '@', '|'] ∧ Text.isBlank c = false := by
  unfold isKindsChar mark
  simp only [Bool.not_eq_true', Bool.or_eq_false_iff, beq_eq_false_iff_ne, List.mem_cons,
    List.not_mem_nil, or_false, not_or]
  constructor
  · rintro ⟨⟨⟨⟨hopen, hclose⟩, hmark⟩, hbar⟩, hblank⟩
    exact ⟨⟨hopen, hclose, hmark, hbar⟩, hblank⟩
  · rintro ⟨⟨hopen, hclose, hmark, hbar⟩, hblank⟩
    exact ⟨⟨⟨⟨hopen, hclose⟩, hmark⟩, hbar⟩, hblank⟩

/-! ### Bodies -/

theorem readBody_eq_none_iff {cs : List Char} : readBody cs = none ↔ Ends cs := by
  constructor
  · intro h body rest' hbody hcs
    have hsome := readBody_eq_some_iff.2 ⟨hcs, hbody.1, hbody.2⟩
    rw [h] at hsome
    cases hsome
  · intro h
    cases hr : readBody cs with
    | none => rfl
    | some p =>
      obtain ⟨hcs, hne, hmem⟩ := readBody_eq_some_iff.1 hr
      exact absurd hcs (h p.1 p.2 ⟨hne, hmem⟩)

theorem readBodies_braced {bodies : List (List Char)} {rest : List Char}
    (hbodies : ∀ body ∈ bodies, IsBody body) (hrest : Ends rest) :
    readBodies (bodies.flatMap braced ++ rest) = (bodies, rest) := by
  induction bodies with
  | nil =>
    show readBodies rest = ([], rest)
    exact readBodies_of_none (readBody_eq_none_iff.2 hrest)
  | cons body bodies ih =>
    have hbody := hbodies body List.mem_cons_self
    have hread : readBody ((body :: bodies).flatMap braced ++ rest) =
        some (body, bodies.flatMap braced ++ rest) := by
      rw [List.flatMap_cons, List.append_assoc]
      exact readBody_eq_some_iff.2 ⟨rfl, hbody.1, hbody.2⟩
    rw [readBodies_of_some hread, ih fun body' h => hbodies body' (List.mem_cons_of_mem _ h)]

theorem isBody_of_mem_readBodies (cs : List Char) :
    (∀ body ∈ (readBodies cs).1, IsBody body) ∧ Ends (readBodies cs).2 := by
  induction hn : cs.length using Nat.strongRecOn generalizing cs with
  | ind n ih =>
    cases h : readBody cs with
    | none =>
      rw [readBodies_of_none h]
      refine ⟨?_, readBody_eq_none_iff.1 h⟩
      intro body hbody
      cases hbody
    | some p =>
      obtain ⟨-, hne, hmem⟩ := readBody_eq_some_iff.1 h
      obtain ⟨hbodies, hends⟩ := ih p.2.length (hn ▸ length_lt_of_readBody h) p.2 rfl
      rw [readBodies_of_some h]
      refine ⟨?_, hends⟩
      intro body hbody
      rcases List.mem_cons.1 hbody with rfl | hbody
      · exact ⟨hne, hmem⟩
      · exact hbodies body hbody

/-! ### Reading a raw pattern -/

/-- The text of the kinds ends where the first body begins. -/
theorem span_kinds {kinds : List Char} (hkinds : ∀ c ∈ kinds, isKindsChar c) (cs : List Char) :
    (kinds ++ '{' :: cs).takeWhile isKindsChar = kinds ∧
      (kinds ++ '{' :: cs).dropWhile isKindsChar = '{' :: cs := by
  have hopen : isKindsChar '{' = false := by decide
  constructor
  · rw [List.takeWhile_append_of_pos hkinds, List.takeWhile_cons_of_neg (by simp [hopen]),
      List.append_nil]
  · rw [List.dropWhile_append_of_pos hkinds, List.dropWhile_cons_of_neg (by simp [hopen])]

theorem begins_of_read {cs rest : List Char} {raw : RawPattern}
    (h : read cs = some (raw, rest)) : Begins cs raw rest := by
  have happend := text_append_of_read h
  unfold read at h
  split at h
  case h_2 => cases h
  case h_1 cs' =>
    obtain ⟨hbodies, hends⟩ := isBody_of_mem_readBodies (cs'.dropWhile isKindsChar)
    split at h
    case h_1 => cases h
    case h_2 bodies rest' hne hread =>
      obtain ⟨rfl, rfl⟩ := Prod.mk.inj (Option.some.inj h)
      rw [hread] at hbodies hends
      have hkinds : ∀ c ∈ cs'.takeWhile isKindsChar, isKindsChar c :=
        List.all_eq_true.1 List.all_takeWhile
      refine ⟨⟨fun c hc => isKindsChar_iff.1 (hkinds c hc), ?_, hbodies⟩, happend.symm, hends⟩
      rintro rfl
      exact hne rfl

theorem read_of_begins {cs rest : List Char} {raw : RawPattern} (h : Begins cs raw rest) :
    read cs = some (raw, rest) := by
  obtain ⟨kinds, bodies⟩ := raw
  obtain ⟨⟨hkinds, hne, hbodies⟩, rfl, hends⟩ := h
  cases bodies with
  | nil => exact absurd rfl hne
  | cons body bodies =>
    have hread := readBodies_braced hbodies hends
    -- The first body is what ends the text of the kinds.
    have hsplit : (body :: bodies).flatMap braced ++ rest =
        '{' :: (body ++ ['}'] ++ (bodies.flatMap braced ++ rest)) := by
      simp [braced]
    obtain ⟨htake, hdrop⟩ := span_kinds (fun c hc => isKindsChar_iff.2 (hkinds c hc))
      (body ++ ['}'] ++ (bodies.flatMap braced ++ rest))
    rw [← hsplit] at htake hdrop
    show read ('@' :: (kinds ++ (body :: bodies).flatMap braced) ++ rest) = _
    rw [List.cons_append, List.append_assoc]
    simp only [read, htake, hdrop, hread]

/-- What is read at the start of a text is the raw pattern that it begins with. -/
theorem read_eq_some_iff {cs rest : List Char} {raw : RawPattern} :
    read cs = some (raw, rest) ↔ Begins cs raw rest :=
  ⟨begins_of_read, read_of_begins⟩

theorem read_eq_none_iff {cs : List Char} : read cs = none ↔ ∀ raw rest, ¬Begins cs raw rest := by
  constructor
  · intro h raw rest hbegins
    rw [read_of_begins hbegins] at h
    cases h
  · intro h
    cases hr : read cs with
    | none => rfl
    | some p => exact absurd (begins_of_read hr) (h p.1 p.2)

end RawPattern

/-! ## Cuts -/

namespace Piece

open RawPattern

/-- An escape with a raw pattern after it stands at the start of a text. -/
def EscapedAt (c : Char) (cs : List Char) : Prop :=
  (c = '@' ∨ c = '\\') ∧ ∃ raw rest, Begins cs raw rest

/-- The pieces of a text, one after the other. -/
inductive Cuts : List Char → List Piece → Prop
  | nil : Cuts [] []
  | escaped {c : Char} {cs rest : List Char} {raw : RawPattern} {pieces : List Piece}
      (hc : c = '@' ∨ c = '\\') (h : Begins cs raw rest) (hrest : Cuts rest pieces) :
      Cuts (c :: cs) (.escaped c raw :: pieces)
  | pattern {c : Char} {cs rest : List Char} {raw : RawPattern} {pieces : List Piece}
      (hescape : ¬EscapedAt c cs) (h : Begins (c :: cs) raw rest) (hrest : Cuts rest pieces) :
      Cuts (c :: cs) (.pattern raw :: pieces)
  | char {c : Char} {cs : List Char} {pieces : List Piece} (hescape : ¬EscapedAt c cs)
      (h : ∀ raw rest, ¬Begins (c :: cs) raw rest) (hrest : Cuts cs pieces) :
      Cuts (c :: cs) (.char c :: pieces)

theorem isEscape_iff {c : Char} : isEscape c ↔ c = '@' ∨ c = '\\' := by
  simp [isEscape, mark]

/-- What is read after an escape. -/
theorem readEscaped_eq_some_iff {c : Char} {cs rest : List Char} {raw : RawPattern} :
    (if isEscape c then read cs else none) = some (raw, rest) ↔
      (c = '@' ∨ c = '\\') ∧ Begins cs raw rest := by
  rw [← isEscape_iff, ← read_eq_some_iff]
  by_cases h : isEscape c
  · simp [h]
  · simp [h]

theorem readEscaped_eq_none_iff {c : Char} {cs : List Char} :
    (if isEscape c then read cs else none) = none ↔ ¬EscapedAt c cs := by
  rw [EscapedAt, ← isEscape_iff]
  by_cases h : isEscape c
  · simp [h, read_eq_none_iff]
  · simp [h]

theorem next_of_escaped {c : Char} {cs rest : List Char} {raw : RawPattern}
    (hc : c = '@' ∨ c = '\\') (h : Begins cs raw rest) : next c cs = (escaped c raw, rest) := by
  unfold next
  rw [readEscaped_eq_some_iff.2 ⟨hc, h⟩]

theorem next_of_pattern {c : Char} {cs rest : List Char} {raw : RawPattern}
    (hescape : ¬EscapedAt c cs) (h : Begins (c :: cs) raw rest) :
    next c cs = (pattern raw, rest) := by
  unfold next
  rw [readEscaped_eq_none_iff.2 hescape, read_eq_some_iff.2 h]

theorem next_of_char {c : Char} {cs : List Char} (hescape : ¬EscapedAt c cs)
    (h : ∀ raw rest, ¬Begins (c :: cs) raw rest) : next c cs = (char c, cs) := by
  unfold next
  rw [readEscaped_eq_none_iff.2 hescape, read_eq_none_iff.2 h]

theorem Cuts.eq_cut {cs : List Char} {pieces : List Piece} (h : Cuts cs pieces) :
    pieces = cut cs := by
  induction h with
  | nil => exact cut_nil.symm
  | escaped hc h _ ih => rw [cut_cons, next_of_escaped hc h, ih]
  | pattern hescape h _ ih => rw [cut_cons, next_of_pattern hescape h, ih]
  | char hescape h _ ih => rw [cut_cons, next_of_char hescape h, ih]

theorem Cuts.wellFormed {cs : List Char} {pieces : List Piece} (h : Cuts cs pieces)
    {raw : RawPattern} (hmem : .pattern raw ∈ pieces) : raw.WellFormed := by
  induction h with
  | nil => cases hmem
  | escaped _ _ _ ih =>
    rcases List.mem_cons.1 hmem with he | hmem
    · cases he
    · exact ih hmem
  | pattern _ h _ ih =>
    rcases List.mem_cons.1 hmem with he | hmem
    · cases he
      exact h.wellFormed
    · exact ih hmem
  | char _ _ _ ih =>
    rcases List.mem_cons.1 hmem with he | hmem
    · cases he
    · exact ih hmem

/-- A raw pattern by itself is one piece. -/
theorem cuts_text {raw : RawPattern} (h : raw.WellFormed) : Cuts raw.text [.pattern raw] := by
  have hbegins : Begins raw.text raw [] := by
    refine ⟨h, (List.append_nil _).symm, ?_⟩
    intro body rest' _ hrest
    cases hrest
  have hescape : ¬EscapedAt '@' (raw.kinds ++ raw.bodies.flatMap braced) := by
    rintro ⟨-, raw', rest, h'⟩
    -- Neither a character of the kinds nor the opening brace begins a raw pattern.
    have hhead := h'.head?_eq
    cases hk : raw.kinds with
    | cons c kinds =>
      rw [hk] at hhead
      have hc := h.kinds c (hk ▸ List.mem_cons_self)
      rw [Option.some.inj hhead] at hc
      exact hc.1 (by simp)
    | nil =>
      cases hb : raw.bodies with
      | nil => exact h.bodies hb
      | cons body bodies =>
        rw [hk, hb] at hhead
        have hopen : some '{' = some '@' := hhead
        exact absurd hopen (by decide)
  exact .pattern hescape hbegins .nil

theorem cuts_cut (cs : List Char) : Cuts cs (cut cs) := by
  fun_induction cut cs with
  | case1 => exact .nil
  | case2 c cs ih =>
    by_cases hescape : EscapedAt c cs
    · obtain ⟨hc, raw, rest, h⟩ := hescape
      rw [next_of_escaped hc h] at ih ⊢
      exact .escaped hc h ih
    · by_cases h : ∃ raw rest, Begins (c :: cs) raw rest
      · obtain ⟨raw, rest, h⟩ := h
        rw [next_of_pattern hescape h] at ih ⊢
        exact .pattern hescape h ih
      · have hnone : ∀ raw rest, ¬Begins (c :: cs) raw rest :=
          fun raw rest hbegins => h ⟨raw, rest, hbegins⟩
        rw [next_of_char hescape hnone] at ih ⊢
        exact .char hescape hnone ih

end Piece

end Inflection
