import Inflection.SortedMap.Basic

/-!
# Lemmas on sorted maps

What each operation does to a look-up, and how look-ups relate to the list of entries.

## Main statements

* `get?_insert`, `get?_erase`: the look-up after an insertion and after a removal.
* `mem_toList_iff`: the entries of a map are its names with their values.
* `exists_toList_insert`: where an insertion puts its entry.
* `ext_get?`: two maps with the same look-ups are equal.
* `get?_ofList_eq_some_iff`: the map of a list in which no name comes twice.
* `ofList_toList`: a map is the map of its entries.
-/

namespace Inflection.SortedMap

universe u

variable {α : Type u}

/-! ## Entries of a sorted list -/

theorem find_insertEntry (k l : String) (v : α) (es : List (String × α)) :
    find l (insertEntry k v es) = if k = l then some v else find l es := by
  induction es with
  | nil => rfl
  | cons e es ih =>
    unfold insertEntry
    split
    · rfl
    · split
      case isTrue _ heq =>
        subst heq
        by_cases h : e.1 = l
        · simp [find, h]
        · simp [find, h]
      case isFalse _ hne =>
        by_cases h : e.1 = l
        · have hk : k ≠ l := fun hkl => hne (hkl.trans h.symm)
          simp [find, h, hk]
        · simp only [find, if_neg h, ih]

theorem find_filter_ne (k l : String) (es : List (String × α)) :
    find l (es.filter fun e => e.1 ≠ k) = if k = l then none else find l es := by
  induction es with
  | nil => simp [find]
  | cons e es ih =>
    by_cases hk : e.1 = k
    · rw [List.filter_cons_of_neg (by simp [hk]), ih]
      by_cases hl : k = l
      · simp [hl]
      · have he : e.1 ≠ l := fun h => hl (hk.symm.trans h)
        simp [hl, find, he]
    · rw [List.filter_cons_of_pos (by simp [hk])]
      by_cases he : e.1 = l
      · have hl : k ≠ l := fun h => hk (he.trans h.symm)
        simp [find, he, hl]
      · simp only [find, if_neg he, ih]

theorem find_eq_none_of_lt {k : String} {es : List (String × α)} (h : ∀ e ∈ es, k < e.1) :
    find k es = none := by
  induction es with
  | nil => rfl
  | cons e es ih =>
    have hk : e.1 ≠ k := by
      intro he
      exact String.lt_irrefl k (he ▸ h e List.mem_cons_self)
    rw [find, if_neg hk]
    exact ih fun f hf => h f (List.mem_cons_of_mem _ hf)

theorem mem_of_find {k : String} {v : α} {es : List (String × α)} (h : find k es = some v) :
    (k, v) ∈ es := by
  induction es with
  | nil => cases h
  | cons e es ih =>
    by_cases he : e.1 = k
    · rw [find, if_pos he] at h
      have hv := Option.some.inj h
      subst he hv
      exact List.mem_cons_self
    · rw [find, if_neg he] at h
      exact List.mem_cons_of_mem _ (ih h)

theorem find_of_mem {k : String} {v : α} {es : List (String × α)}
    (hs : es.Pairwise fun e f => e.1 < f.1) (h : (k, v) ∈ es) : find k es = some v := by
  induction es with
  | nil => cases h
  | cons e es ih =>
    have hes := List.pairwise_cons.1 hs
    rcases List.mem_cons.1 h with rfl | h
    · simp [find]
    · have he : e.1 ≠ k := by
        intro he
        have hlt : e.1 < k := hes.1 (k, v) h
        exact String.lt_irrefl k (he ▸ hlt)
      rw [find, if_neg he]
      exact ih hes.2 h

theorem filter_eq_find {es : List (String × α)} (hs : es.Pairwise fun e f => e.1 < f.1)
    (k : String) : (es.filter fun e => e.1 == k) = ((find k es).map fun v => (k, v)).toList := by
  induction es with
  | nil => rfl
  | cons e es ih =>
    obtain ⟨hlt, hes⟩ := List.pairwise_cons.1 hs
    by_cases he : e.1 = k
    · subst he
      have hnone : (es.filter fun f => f.1 == e.1) = [] := by
        refine List.filter_eq_nil_iff.2 ?_
        intro f hf heq
        have hlt := hlt f hf
        rw [beq_iff_eq.1 heq] at hlt
        exact String.lt_irrefl e.1 hlt
      rw [List.filter_cons_of_pos (by simp), hnone, find, if_pos rfl]
      rfl
    · rw [List.filter_cons_of_neg (by simpa using he), ih hes, find, if_neg he]

/-- An entry is put in place of the one of its name, or between two others. -/
theorem exists_insertEntry (k : String) {es : List (String × α)}
    (hs : es.Pairwise fun e f => e.1 < f.1) :
    ∃ before after, es = before ++ ((find k es).map fun v => (k, v)).toList ++ after ∧
      ∀ v, insertEntry k v es = before ++ (k, v) :: after := by
  induction es with
  | nil => exact ⟨[], [], rfl, fun _ => rfl⟩
  | cons e es ih =>
    obtain ⟨hlt, hes⟩ := List.pairwise_cons.1 hs
    unfold insertEntry
    by_cases hke : k < e.1
    · have hnone : find k (e :: es) = none := by
        refine find_eq_none_of_lt (List.forall_mem_cons.2 ⟨hke, ?_⟩)
        exact fun f hf => String.lt_trans hke (hlt f hf)
      exact ⟨[], e :: es, by rw [hnone]; rfl, fun v => by rw [if_pos hke]; rfl⟩
    · by_cases heq : k = e.1
      · subst heq
        refine ⟨[], es, ?_, fun v => by rw [if_neg hke, if_pos rfl]; rfl⟩
        rw [find, if_pos rfl]
        rfl
      · obtain ⟨before, after, hsplit, hinsert⟩ := ih hes
        refine ⟨e :: before, after, ?_, fun v => ?_⟩
        · rw [find, if_neg (Ne.symm heq), List.cons_append, List.cons_append, ← hsplit]
        · rw [if_neg hke, if_neg heq, hinsert, List.cons_append]

/-- Sorted lists of entries with the same look-ups are equal. -/
theorem eq_of_find_eq {es fs : List (String × α)} (hes : es.Pairwise fun e f => e.1 < f.1)
    (hfs : fs.Pairwise fun e f => e.1 < f.1) (h : ∀ k, find k es = find k fs) : es = fs := by
  induction es generalizing fs with
  | nil =>
    cases fs with
    | nil => rfl
    | cons f fs => simpa [find] using h f.1
  | cons e es ih =>
    have he := List.pairwise_cons.1 hes
    cases fs with
    | nil => simpa [find] using h e.1
    | cons f fs =>
      have hf := List.pairwise_cons.1 hfs
      have hname : e.1 = f.1 := by
        have hmem : (e.1, e.2) ∈ f :: fs := mem_of_find (by rw [← h]; simp [find])
        have hmem' : (f.1, f.2) ∈ e :: es := mem_of_find (by rw [h]; simp [find])
        rcases List.mem_cons.1 hmem with hef | hef
        · exact congrArg Prod.fst hef
        · rcases List.mem_cons.1 hmem' with hfe | hfe
          · exact (congrArg Prod.fst hfe).symm
          · exact absurd (hf.1 _ hef) (String.lt_asymm (he.1 _ hfe))
      have hvalue : e.2 = f.2 := by
        have := h e.1
        simp only [find, if_pos hname.symm] at this
        exact Option.some.inj this
      have htail : es = fs := by
        refine ih he.2 hf.2 fun k => ?_
        by_cases hk : e.1 = k
        · subst hk
          rw [find_eq_none_of_lt he.1, hname, find_eq_none_of_lt hf.1]
        · have hk' : f.1 ≠ k := fun h' => hk (hname.trans h')
          have := h k
          rwa [find, find, if_neg hk, if_neg hk'] at this
      rw [htail, Prod.ext hname hvalue]

/-! ## Look-ups -/

@[simp] theorem toList_empty : (∅ : SortedMap α).toList = [] := rfl

@[simp] theorem get?_empty (k : String) : (∅ : SortedMap α).get? k = none := rfl

theorem get?_insert (m : SortedMap α) (k l : String) (v : α) :
    (m.insert k v).get? l = if k = l then some v else m.get? l :=
  find_insertEntry k l v m.toList

@[simp] theorem get?_insert_self (m : SortedMap α) (k : String) (v : α) :
    (m.insert k v).get? k = some v := by
  simp [get?_insert]

theorem get?_insert_of_ne (m : SortedMap α) {k l : String} (v : α) (h : k ≠ l) :
    (m.insert k v).get? l = m.get? l := by
  simp [get?_insert, h]

theorem get?_erase (m : SortedMap α) (k l : String) :
    (m.erase k).get? l = if k = l then none else m.get? l :=
  find_filter_ne k l m.toList

theorem contains_eq_isSome (m : SortedMap α) (k : String) : m.contains k = (m.get? k).isSome :=
  rfl

theorem contains_insert (m : SortedMap α) (k l : String) (v : α) :
    (m.insert k v).contains l = (k == l || m.contains l) := by
  rw [contains, get?_insert]
  by_cases h : k = l
  · simp [h]
  · simp [h, contains]

/-! ## Entries -/

theorem mem_toList_iff {m : SortedMap α} {k : String} {v : α} :
    (k, v) ∈ m.toList ↔ m.get? k = some v :=
  ⟨find_of_mem m.sorted, mem_of_find⟩

theorem mem_keys_iff {m : SortedMap α} {k : String} : k ∈ m.keys ↔ m.contains k := by
  constructor
  · intro h
    obtain ⟨e, he, rfl⟩ := List.mem_map.1 h
    rw [contains, mem_toList_iff.1 he]
    rfl
  · intro h
    obtain ⟨v, hv⟩ := Option.isSome_iff_exists.1 h
    exact List.mem_map.2 ⟨(k, v), mem_toList_iff.2 hv, rfl⟩

theorem mem_values_iff {m : SortedMap α} {v : α} : v ∈ m.values ↔ ∃ k, m.get? k = some v := by
  constructor
  · intro h
    obtain ⟨e, he, rfl⟩ := List.mem_map.1 h
    exact ⟨e.1, mem_toList_iff.1 he⟩
  · rintro ⟨k, hk⟩
    exact List.mem_map.2 ⟨(k, v), mem_toList_iff.2 hk, rfl⟩

/-- The entries of one name: its value, if it has one. -/
theorem filter_toList (m : SortedMap α) (k : String) :
    (m.toList.filter fun e => e.1 == k) = ((m.get? k).map fun v => (k, v)).toList :=
  filter_eq_find m.sorted k

/-- An insertion puts an entry in place of the one of its name, or between two others. -/
theorem exists_toList_insert (m : SortedMap α) (k : String) :
    ∃ before after, m.toList = before ++ ((m.get? k).map fun v => (k, v)).toList ++ after ∧
      ∀ v, (m.insert k v).toList = before ++ (k, v) :: after :=
  exists_insertEntry k m.sorted

/-- A name that a map has stays where it is. -/
theorem keys_insert {m : SortedMap α} {k : String} {w : α} (h : m.get? k = some w) (v : α) :
    (m.insert k v).keys = m.keys := by
  obtain ⟨before, after, hm, hinsert⟩ := m.exists_toList_insert k
  rw [keys, keys, hinsert, hm, h]
  simp only [Option.map_some, Option.toList_some, List.map_append, List.map_cons,
    List.append_assoc, List.cons_append, List.nil_append]

theorem keys_sorted (m : SortedMap α) : m.keys.Pairwise (· < ·) :=
  List.pairwise_map.2 m.sorted

theorem nodup_keys (m : SortedMap α) : m.keys.Nodup := m.keys_sorted.imp String.ne_of_lt

/-- Two maps with the same look-ups are equal. -/
theorem ext_get? {m n : SortedMap α} (h : ∀ k, m.get? k = n.get? k) : m = n := by
  cases m
  cases n
  rw [SortedMap.mk.injEq]
  exact eq_of_find_eq (by assumption) (by assumption) h

theorem insert_insert (m : SortedMap α) (k : String) (v w : α) :
    (m.insert k v).insert k w = m.insert k w := by
  refine ext_get? fun x => ?_
  simp only [get?_insert]
  by_cases hk : k = x
  · simp [hk]
  · simp [hk]

/-! ## Maps of lists -/

theorem get?_foldl_insert {es : List (String × α)} (h : (es.map (·.1)).Nodup) (m : SortedMap α)
    {k : String} {v : α} :
    (es.foldl (fun m e => m.insert e.1 e.2) m).get? k = some v ↔
      (k, v) ∈ es ∨ k ∉ es.map (·.1) ∧ m.get? k = some v := by
  induction es generalizing m with
  | nil => simp
  | cons e es ih =>
    obtain ⟨hnotMem, hnodup⟩ := List.nodup_cons.1 h
    rw [List.foldl_cons, ih hnodup, get?_insert]
    by_cases hk : e.1 = k
    · subst hk
      have hnot : (e.1, v) ∉ es := fun hmem => hnotMem (List.mem_map.2 ⟨_, hmem, rfl⟩)
      rw [if_pos rfl, List.map_cons]
      refine ⟨?_, ?_⟩
      · rintro (hmem | ⟨-, hv⟩)
        · exact absurd hmem hnot
        · rw [← Option.some.inj hv]
          exact .inl List.mem_cons_self
      · rintro (hmem | ⟨hmem, -⟩)
        · rcases List.mem_cons.1 hmem with heq | hmem
          · exact .inr ⟨hnotMem, by rw [← heq]⟩
          · exact absurd hmem hnot
        · exact absurd List.mem_cons_self hmem
    · have hne : (k, v) ≠ e := fun heq => hk (congrArg Prod.fst heq).symm
      rw [if_neg hk, List.map_cons, List.mem_cons, List.mem_cons, or_iff_right hne,
        not_or, and_iff_right (Ne.symm hk)]

theorem mem_toList_foldl_insert {es : List (String × α)} {m : SortedMap α} {e : String × α}
    (h : e ∈ (es.foldl (fun m e => m.insert e.1 e.2) m).toList) : e ∈ es ∨ e ∈ m.toList := by
  induction es generalizing m with
  | nil => exact .inr h
  | cons f fs ih =>
    rcases ih h with h | h
    · exact .inl (List.mem_cons_of_mem _ h)
    · rcases mem_insertEntry h with rfl | h
      · exact .inl List.mem_cons_self
      · exact .inr h

/-- The entries of the map of a list are among those of the list. -/
theorem mem_of_mem_toList_ofList {es : List (String × α)} {e : String × α}
    (h : e ∈ (ofList es).toList) : e ∈ es :=
  (mem_toList_foldl_insert h).resolve_right (nomatch ·)

/-- A list in which no name comes twice gives the map of its entries. -/
theorem get?_ofList_eq_some_iff {es : List (String × α)} (h : (es.map (·.1)).Nodup) {k : String}
    {v : α} : (ofList es).get? k = some v ↔ (k, v) ∈ es := by
  refine (get?_foldl_insert h empty).trans (or_iff_left ?_)
  rintro ⟨-, hv⟩
  cases hv

/-- A map is the map of its entries. -/
theorem ofList_toList (m : SortedMap α) : ofList m.toList = m := by
  refine ext_get? fun k => Option.ext fun v => ?_
  rw [get?_ofList_eq_some_iff m.nodup_keys, mem_toList_iff]

end Inflection.SortedMap
