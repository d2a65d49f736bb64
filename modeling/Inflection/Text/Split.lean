/-!
# Splitting at a character

`splitFirst c cs` is the text before and the text after the first `c` of `cs`.
`splitFirst_eq_some_iff` says that it finds that place and no other, and `splitFirst_eq_none_iff`
says when there is none.  A text is split at every `c` by `List.splitOn`; `mem_splitOn` says what
its parts hold, and `splitOn_join` that it undoes joining by `c`.
-/

namespace Inflection.Text

/-- The text before and after the first occurrence of a character. -/
def splitFirst (c : Char) : List Char → Option (List Char × List Char)
  | [] => none
  | d :: ds =>
    if d = c then some ([], ds)
    else match splitFirst c ds with
      | some (before, after) => some (d :: before, after)
      | none => none

theorem splitFirst_eq_none_iff {c : Char} {cs : List Char} : splitFirst c cs = none ↔ c ∉ cs := by
  induction cs with
  | nil => simp [splitFirst]
  | cons d ds ih =>
    unfold splitFirst
    by_cases h : d = c
    · simp [h]
    · rw [if_neg h]
      cases hs : splitFirst c ds with
      | none => simp [ih.1 hs, Ne.symm h]
      | some p => simpa [hs, Ne.symm h] using ih

theorem splitFirst_append {c : Char} {before after : List Char} (h : c ∉ before) :
    splitFirst c (before ++ c :: after) = some (before, after) := by
  induction before with
  | nil => simp [splitFirst]
  | cons d ds ih =>
    simp only [List.mem_cons, not_or] at h
    simp [splitFirst, Ne.symm h.1, ih h.2]

theorem splitFirst_eq_some_iff {c : Char} {cs before after : List Char} :
    splitFirst c cs = some (before, after) ↔ cs = before ++ c :: after ∧ c ∉ before := by
  refine ⟨fun h => ?_, fun h => h.1 ▸ splitFirst_append h.2⟩
  induction cs generalizing before with
  | nil => simp [splitFirst] at h
  | cons d ds ih =>
    unfold splitFirst at h
    by_cases hd : d = c
    · rw [if_pos hd] at h
      obtain ⟨rfl, rfl⟩ := Prod.mk.inj (Option.some.inj h)
      simp [hd]
    · rw [if_neg hd] at h
      cases hs : splitFirst c ds with
      | none => simp [hs] at h
      | some p =>
        rw [hs] at h
        obtain ⟨rfl, rfl⟩ := Prod.mk.inj (Option.some.inj h)
        obtain ⟨hds, hmem⟩ := ih hs
        exact ⟨by rw [hds]; rfl, by simp [Ne.symm hd, hmem]⟩

/-! ## All occurrences -/

/-- A part of a split text is text of it without the character that it is split at. -/
theorem mem_splitOn {c : Char} {cs part : List Char} (h : part ∈ cs.splitOn c) :
    c ∉ part ∧ part ⊆ cs := by
  induction cs generalizing part with
  | nil =>
    rw [List.splitOn_nil, List.mem_singleton] at h
    rw [h]
    exact ⟨List.not_mem_nil, List.Subset.refl _⟩
  | cons d ds ih =>
    rw [List.splitOn_cons_eq_if_modifyHead] at h
    split at h
    · rcases List.mem_cons.1 h with rfl | h
      · exact ⟨List.not_mem_nil, List.nil_subset _⟩
      · exact ⟨(ih h).1, fun x hx => List.mem_cons_of_mem _ ((ih h).2 hx)⟩
    · rename_i hd
      cases hs : ds.splitOn c with
      | nil => exact absurd hs (List.splitOn_ne_nil c ds)
      | cons first rest =>
        rw [hs] at ih h
        rcases List.mem_cons.1 h with rfl | h
        · obtain ⟨hmem, hsub⟩ := ih List.mem_cons_self
          have hne : c ≠ d := fun he => hd (beq_iff_eq.2 he.symm)
          exact ⟨fun hc => (List.mem_cons.1 hc).elim hne hmem, List.cons_subset_cons d hsub⟩
        · obtain ⟨hmem, hsub⟩ := ih (List.mem_cons_of_mem _ h)
          exact ⟨hmem, fun x hx => List.mem_cons_of_mem _ (hsub hx)⟩

/-- A character of a joined text is one of its parts, or the one that they are joined by. -/
theorem mem_join {sep : String} {c x : Char} (hsep : sep.toList = [c]) {parts : List String}
    (h : x ∈ (sep.intercalate parts).toList) : x = c ∨ ∃ part ∈ parts, x ∈ part.toList := by
  rw [String.toList_intercalate, hsep] at h
  induction parts with
  | nil => cases h
  | cons part parts ih =>
    cases parts with
    | nil =>
      rw [List.map_cons, List.map_nil, List.intercalate_singleton] at h
      exact .inr ⟨part, List.mem_cons_self, h⟩
    | cons part' parts =>
      rw [List.map_cons, List.map_cons, List.intercalate_cons_cons] at h
      rcases List.mem_append.1 h with h | h
      · rcases List.mem_append.1 h with h | h
        · exact .inr ⟨part, List.mem_cons_self, h⟩
        · exact .inl (List.mem_singleton.1 h)
      · rcases ih h with h | ⟨q, hq, hx⟩
        · exact .inl h
        · exact .inr ⟨q, List.mem_cons_of_mem _ hq, hx⟩

/-- Splitting undoes joining, when no part holds the character. -/
theorem splitOn_join {sep : String} {c : Char} (hsep : sep.toList = [c]) {parts : List String}
    (hne : parts ≠ []) (h : ∀ part ∈ parts, c ∉ part.toList) :
    (sep.intercalate parts).toList.splitOn c = parts.map String.toList := by
  rw [String.toList_intercalate, hsep]
  refine List.splitOn_intercalate c ?_ (by simpa using hne)
  intro cs hcs
  obtain ⟨part, hpart, rfl⟩ := List.mem_map.1 hcs
  exact h part hpart

/-- Joining undoes splitting. -/
theorem join_splitOn {sep : String} {c : Char} (hsep : sep.toList = [c]) (s : String) :
    sep.intercalate ((s.toList.splitOn c).map String.ofList) = s := by
  rw [← String.toList_inj, String.toList_intercalate, hsep, List.map_map]
  have hid : String.toList ∘ String.ofList = id := funext fun _ => String.toList_ofList
  rw [hid, List.map_id, List.intercalate_splitOn]

end Inflection.Text
