/-!
# Sorted maps

`SortedMap α` is a finite map from names to values, kept as the list of its entries in strictly
increasing order of their names.  Names are ordered by code points, so a map has exactly one form
and two maps are equal when they hold the same entries.

Insertion is a single pass.  `find_insertEntry` needs no hypothesis on the list, and
`pairwise_insertEntry` is what keeps the order.
-/

namespace Inflection

universe u v

/-- A finite map from names to values, in increasing order of the names. -/
structure SortedMap (α : Type u) where
  toList : List (String × α)
  sorted : toList.Pairwise fun e f => e.1 < f.1
deriving DecidableEq

namespace SortedMap

variable {α : Type u} {β : Type v}

/-! ## Entries of a sorted list -/

/-- Puts an entry in its place, over an entry of the same name. -/
def insertEntry (k : String) (v : α) : List (String × α) → List (String × α)
  | [] => [(k, v)]
  | e :: es =>
    if k < e.1 then (k, v) :: e :: es
    else if k = e.1 then (k, v) :: es
    else e :: insertEntry k v es

/-- The value of the first entry of a name. -/
def find (k : String) : List (String × α) → Option α
  | [] => none
  | e :: es => if e.1 = k then some e.2 else find k es

theorem mem_insertEntry {k : String} {v : α} {e : String × α} :
    ∀ {es : List (String × α)}, e ∈ insertEntry k v es → e = (k, v) ∨ e ∈ es
  | [], h => by simpa [insertEntry] using h
  | f :: fs, h => by
    unfold insertEntry at h
    split at h
    · simpa using h
    · split at h
      · rcases List.mem_cons.1 h with h | h
        · exact .inl h
        · exact .inr (List.mem_cons_of_mem _ h)
      · rcases List.mem_cons.1 h with h | h
        · exact .inr (h ▸ List.mem_cons_self)
        · exact (mem_insertEntry h).imp id (List.mem_cons_of_mem _)

/-- Of two names, one that is neither below nor equal is above. -/
theorem lt_of_not_lt_of_ne {k l : String} (h : ¬k < l) (hne : k ≠ l) : l < k := by
  rcases String.le_total k l with hle | hle
  · by_cases hlk : l < k
    · exact hlk
    · exact absurd (String.le_antisymm hle (String.not_lt.1 h)) hne
  · by_cases hlk : l < k
    · exact hlk
    · exact absurd (String.le_antisymm (String.not_lt.1 hlk) hle) hne

theorem pairwise_insertEntry (k : String) (v : α) {es : List (String × α)}
    (h : es.Pairwise fun e f => e.1 < f.1) :
    (insertEntry k v es).Pairwise fun e f => e.1 < f.1 := by
  induction es with
  | nil => simp [insertEntry]
  | cons e es ih =>
    have hes := List.pairwise_cons.1 h
    unfold insertEntry
    split
    case isTrue hlt =>
      refine List.pairwise_cons.2 ⟨fun f hf => ?_, h⟩
      rcases List.mem_cons.1 hf with rfl | hf
      · exact hlt
      · exact String.lt_trans hlt (hes.1 f hf)
    case isFalse hlt =>
      split
      case isTrue heq =>
        exact List.pairwise_cons.2 ⟨fun f hf => heq ▸ hes.1 f hf, hes.2⟩
      case isFalse hne =>
        refine List.pairwise_cons.2 ⟨fun f hf => ?_, ih hes.2⟩
        rcases mem_insertEntry hf with rfl | hf
        · exact lt_of_not_lt_of_ne hlt hne
        · exact hes.1 f hf

/-! ## Operations -/

/-- The map without entries. -/
def empty : SortedMap α := ⟨[], List.Pairwise.nil⟩

instance : EmptyCollection (SortedMap α) := ⟨empty⟩
instance : Inhabited (SortedMap α) := ⟨empty⟩

/-- The value of a name. -/
def get? (m : SortedMap α) (k : String) : Option α := find k m.toList

/-- Whether a name has a value. -/
def contains (m : SortedMap α) (k : String) : Bool := (m.get? k).isSome

/-- Gives a name a value, in place of any it had. -/
def insert (m : SortedMap α) (k : String) (v : α) : SortedMap α :=
  ⟨insertEntry k v m.toList, pairwise_insertEntry k v m.sorted⟩

/-- Takes a name out of the map. -/
def erase (m : SortedMap α) (k : String) : SortedMap α :=
  ⟨m.toList.filter fun e => e.1 ≠ k, m.sorted.sublist List.filter_sublist⟩

/-- The names, in increasing order. -/
def keys (m : SortedMap α) : List String := m.toList.map (·.1)

/-- The values, in the order of their names. -/
def values (m : SortedMap α) : List α := m.toList.map (·.2)

/-- The number of names. -/
def size (m : SortedMap α) : Nat := m.toList.length

/-- Whether no name has a value. -/
def isEmpty (m : SortedMap α) : Bool := m.toList.isEmpty

/-- The map of a list of entries, where the last of equal names wins. -/
def ofList (es : List (String × α)) : SortedMap α :=
  es.foldl (fun m e => m.insert e.1 e.2) empty

end SortedMap

end Inflection
