import Inflection.Proofs.Lexicon.Built
import Inflection.Proofs.Lexicon.Pointer
import Mathlib.Data.List.Nodup

/-!
# The entries of a tree

Loading sees a tree as the list of its kinds, and each kind as the list of its entries.

## Main statements

* `RawTree.mem_kinds_iff`, `mem_items_iff`: the kinds and entries of the list are those of the tree.
* `RawTree.nodup_items`: no entry is listed twice.
-/

namespace Inflection

/-! ## Entries by form -/

/-- What an entry of a kind is: its default, a true token, an alias, or a token without
description. -/
inductive EntryForm where
  | default
  | missing
  | plain (description : String)
  | pointer (pointer : String)
deriving DecidableEq

/-- Whether the entry is a true token. -/
def EntryForm.IsPlain (f : EntryForm) : Prop := ∃ description, f = plain description

/-- Whether the entry is an alias. -/
def EntryForm.IsPointer (f : EntryForm) : Prop := ∃ p, f = pointer p

/-- The form of an entry with a given name and value. -/
def EntryForm.of (name : String) : Option String → EntryForm
  | none => if name = defaultName then default else missing
  | some value =>
    if name = defaultName then default
    else if isMarked value then pointer value
    else plain value

/-- An entry of a configured kind. -/
structure Item where
  kind : KindEntry
  name : String
  value? : Option String

namespace Item

/-- The form of the entry. -/
def form (i : Item) : EntryForm := .of i.name i.value?

/-- The namespace of the entry. -/
def space (i : Item) : Option String := Lexicon.space i.kind.strict i.kind.name

theorem form_eq_iff {i : Item} {f : EntryForm} :
    i.form = f ↔ match f with
      | .default => i.name = defaultName
      | .missing => i.name ≠ defaultName ∧ i.value? = none
      | .plain description =>
        i.name ≠ defaultName ∧ i.value? = some description ∧ isMarked description = false
      | .pointer pointer => i.name ≠ defaultName ∧ i.value? = some pointer ∧ isMarked pointer := by
  obtain ⟨k, name, value?⟩ := i
  unfold form EntryForm.of
  cases value? with
  | none =>
    by_cases hn : name = defaultName
    · cases f <;> simp [hn]
    · cases f <;> simp [hn]
  | some value =>
    by_cases hn : name = defaultName
    · cases f <;> simp [hn]
    · cases hv : isMarked value
      · cases f <;> grind
      · cases f <;> grind

theorem form_eq_default_iff {i : Item} : i.form = .default ↔ i.name = defaultName :=
  form_eq_iff

theorem form_eq_missing_iff {i : Item} :
    i.form = .missing ↔ i.name ≠ defaultName ∧ i.value? = none :=
  form_eq_iff

theorem form_eq_plain_iff {i : Item} {description : String} :
    i.form = .plain description ↔
      i.name ≠ defaultName ∧ i.value? = some description ∧ isMarked description = false :=
  form_eq_iff

theorem form_eq_pointer_iff {i : Item} {pointer : String} :
    i.form = .pointer pointer ↔
      i.name ≠ defaultName ∧ i.value? = some pointer ∧ isMarked pointer :=
  form_eq_iff

end Item

/-- The entries of a kind. -/
def KindEntry.items (k : KindEntry) : List Item :=
  k.entries.toList.map fun e => ⟨k, e.1, e.2⟩

theorem KindEntry.mem_items_iff {k : KindEntry} {i : Item} :
    i ∈ k.items ↔ i.kind = k ∧ k.entries.get? i.name = some i.value? := by
  rw [items, List.mem_map]
  refine ⟨?_, ?_⟩
  · intro h
    obtain ⟨e, he, rfl⟩ := h
    exact ⟨rfl, SortedMap.mem_toList_iff.1 he⟩
  · intro h
    obtain ⟨rfl, hget⟩ := h
    exact ⟨(i.name, i.value?), SortedMap.mem_toList_iff.2 hget, rfl⟩

theorem KindEntry.nodup_items (k : KindEntry) : k.items.Nodup := by
  refine List.pairwise_map.2 (k.entries.sorted.imp fun {e f} hlt heq => ?_)
  have hname : e.1 = f.1 := congrArg Item.name heq
  exact String.lt_irrefl _ (hname ▸ hlt)

/-! ## Kinds -/

/-- A configured kind, under the name without mark. -/
def KindEntry.of (e : String × RawKind) : KindEntry := ⟨stripMark e.1, isMarked e.1, e.2⟩

/-- The name of a kind in the configuration. -/
def KindEntry.key (k : KindEntry) : String := if k.strict then putMark k.name else k.name

theorem KindEntry.key_of (e : String × RawKind) : (of e).key = e.1 := by
  unfold key of
  cases h : isMarked e.1 with
  | true => exact putMark_stripMark h
  | false => exact stripMark_of_not_isMarked h

theorem KindEntry.check_eq_ok_iff {locale : String} {e : String × RawKind} {k : KindEntry} :
    check locale e = .ok k ↔
      (isName (stripMark e.1) ∧ isReservedKey (stripMark e.1) = false) ∧ k = of e := by
  unfold check
  by_cases h : isName (stripMark e.1) ∧ isReservedKey (stripMark e.1) = false
  · simp [h.1, h.2, of, eq_comm]
  · have hbad : (!isName (stripMark e.1) || isReservedKey (stripMark e.1)) = true := by
      cases hn : isName (stripMark e.1) with
      | false => rfl
      | true => simpa [hn] using h
    simp [hbad, h]

namespace RawTree

variable {tree : RawTree}

/-- The kinds of a tree, in the order of the tree. -/
def kinds (tree : RawTree) : List KindEntry := tree.toList.map .of

/-- The entries of all kinds of a tree. -/
def items (tree : RawTree) : List Item := tree.kinds.flatMap (·.items)

theorem mem_kinds_iff {k : KindEntry} :
    k ∈ tree.kinds ↔ ∃ key entries, tree.get? key = some entries ∧ k = .of (key, entries) := by
  rw [kinds, List.mem_map]
  refine ⟨?_, ?_⟩
  · intro h
    obtain ⟨⟨key, entries⟩, he, rfl⟩ := h
    exact ⟨key, entries, SortedMap.mem_toList_iff.1 he, rfl⟩
  · intro h
    obtain ⟨key, entries, hget, rfl⟩ := h
    exact ⟨(key, entries), SortedMap.mem_toList_iff.2 hget, rfl⟩

theorem of_mem_kinds {key : String} {entries : RawKind} (h : tree.get? key = some entries) :
    .of (key, entries) ∈ tree.kinds :=
  mem_kinds_iff.2 ⟨key, entries, h, rfl⟩

theorem get?_key {k : KindEntry} (h : k ∈ tree.kinds) : tree.get? k.key = some k.entries := by
  obtain ⟨key, entries, hget, rfl⟩ := mem_kinds_iff.1 h
  rw [KindEntry.key_of]
  exact hget

theorem stripMark_key {k : KindEntry} (h : k ∈ tree.kinds) : stripMark k.key = k.name := by
  obtain ⟨key, entries, -, rfl⟩ := mem_kinds_iff.1 h
  rw [KindEntry.key_of]
  rfl

theorem isMarked_key {k : KindEntry} (h : k ∈ tree.kinds) : isMarked k.key = k.strict := by
  obtain ⟨key, entries, -, rfl⟩ := mem_kinds_iff.1 h
  rw [KindEntry.key_of]
  rfl

theorem key_eq_name {k : KindEntry} (h : k ∈ tree.kinds) (hm : isMarked k.key = false) :
    k.key = k.name :=
  (stripMark_of_not_isMarked hm).symm.trans (stripMark_key h)

/-- Kinds of one tree with the same name in the configuration are equal. -/
theorem eq_of_key_eq {k l : KindEntry} (hk : k ∈ tree.kinds) (hl : l ∈ tree.kinds)
    (h : k.key = l.key) : k = l := by
  obtain ⟨key, entries, hget, rfl⟩ := mem_kinds_iff.1 hk
  obtain ⟨key', entries', hget', rfl⟩ := mem_kinds_iff.1 hl
  rw [KindEntry.key_of, KindEntry.key_of] at h
  subst h
  rw [hget] at hget'
  cases hget'
  rfl

theorem mem_items_iff {i : Item} :
    i ∈ tree.items ↔ i.kind ∈ tree.kinds ∧ i.kind.entries.get? i.name = some i.value? := by
  rw [items, List.mem_flatMap]
  refine ⟨?_, ?_⟩
  · intro h
    obtain ⟨k, hk, hi⟩ := h
    obtain ⟨rfl, hget⟩ := KindEntry.mem_items_iff.1 hi
    exact ⟨hk, hget⟩
  · intro h
    obtain ⟨hk, hget⟩ := h
    exact ⟨i.kind, hk, KindEntry.mem_items_iff.2 ⟨rfl, hget⟩⟩

theorem nodup_items (tree : RawTree) : tree.items.Nodup := by
  refine List.nodup_flatMap.2 ⟨fun k _ => k.nodup_items, ?_⟩
  refine List.pairwise_map.2 (tree.sorted.imp fun {e f} hlt i hi hj => ?_)
  have hkey : KindEntry.key (.of e) = KindEntry.key (.of f) := by
    rw [← (KindEntry.mem_items_iff.1 hi).1, ← (KindEntry.mem_items_iff.1 hj).1]
  rw [KindEntry.key_of, KindEntry.key_of] at hkey
  exact String.lt_irrefl _ (hkey ▸ hlt)

/-- A property of some loose kind, said of the tree itself. -/
theorem exists_loose_kind_iff {P : String → RawKind → Prop} :
    (∃ k ∈ tree.kinds, Lexicon.space k.strict k.name = none ∧ P k.name k.entries) ↔
      ∃ kind entries, tree.get? kind = some entries ∧ isMarked kind = false ∧ P kind entries := by
  refine ⟨?_, ?_⟩
  · intro h
    obtain ⟨k, hk, hσ, hp⟩ := h
    obtain ⟨key, entries, hget, rfl⟩ := mem_kinds_iff.1 hk
    have hm : isMarked key = false := by
      cases hm : isMarked key with
      | false => rfl
      | true => simp [KindEntry.of, Lexicon.space, hm] at hσ
    rw [KindEntry.of, stripMark_of_not_isMarked hm] at hp
    exact ⟨key, entries, hget, hm, hp⟩
  · intro h
    obtain ⟨kind, entries, hget, hm, hp⟩ := h
    refine ⟨_, of_mem_kinds hget, ?_, ?_⟩
    · simp [KindEntry.of, Lexicon.space, hm]
    · rw [KindEntry.of, stripMark_of_not_isMarked hm]
      exact hp

/-- A property of one strict kind, said of the tree itself. -/
theorem exists_strict_kind_iff {kind : String} {P : String → RawKind → Prop} :
    (∃ k ∈ tree.kinds, Lexicon.space k.strict k.name = some kind ∧ P k.name k.entries) ↔
      ∃ entries, tree.get? (putMark kind) = some entries ∧ P kind entries := by
  refine ⟨?_, ?_⟩
  · intro h
    obtain ⟨k, hk, hσ, hp⟩ := h
    have hget := get?_key hk
    obtain ⟨hs, rfl⟩ : k.strict = true ∧ k.name = kind := by simpa [Lexicon.space] using hσ
    rw [KindEntry.key, if_pos hs] at hget
    exact ⟨k.entries, hget, hp⟩
  · intro h
    obtain ⟨entries, hget, hp⟩ := h
    refine ⟨_, of_mem_kinds hget, ?_, ?_⟩
    · simp [KindEntry.of, Lexicon.space]
    · rw [KindEntry.of, stripMark_putMark]
      exact hp

end RawTree

end Inflection
