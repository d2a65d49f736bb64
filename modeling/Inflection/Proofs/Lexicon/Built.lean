import Inflection.Lexicon.Basic
import Inflection.Proofs.Store.Strict
import Mathlib.Data.List.Nodup

/-!
# Lexicons built by registrations

`Lexicon.Built` says that the stores of a lexicon come from empty ones by registrations, accepted
or refused, in any order.  Both stores are then well formed.  A namespace of a lexicon, that of all
loose kinds or that of one strict kind, is a loose store by `slice`, so what is said of the
registrations of loose stores holds of both sorts.

## Main statements

* `registrations_wellFormed`: whatever is registered, the stores satisfy their invariants, and a
  lexicon of such stores is empty exactly when it counts no tokens.
* `Built.register`: an accepted registration keeps a lexicon built.
* `slice_register`, `slice_register_of_ne`: a registration in a kind is one in its namespace, and
  leaves the other namespaces alone.
-/

namespace Inflection

theorem LooseStore.attemptAll_concat (s : LooseStore) (rs : List Registration)
    (r : Registration) : s.attemptAll (rs ++ [r]) = (s.attemptAll rs).attempt r := by
  rw [attemptAll, List.foldl_append]
  rfl

theorem StrictStore.attemptAll_concat (s : StrictStore) (rs : List Registration)
    (r : Registration) : s.attemptAll (rs ++ [r]) = (s.attemptAll rs).attempt r := by
  rw [attemptAll, List.foldl_append]
  rfl

/-! ## Empty stores -/

/-- A kind of a well-formed store holds a token. -/
theorem StrictStore.WellFormed.size_pos {s : StrictStore} (hs : s.WellFormed) {kind : String}
    {entry : KindTokens} (h : s.kinds.get? kind = some entry) : 0 < entry.tokens.size := by
  have hhas : s.hasKind kind := by
    rw [StrictStore.hasKind, SortedMap.contains_eq_isSome, h]
    rfl
  obtain ⟨name, t, ht, -⟩ := hs.base hhas
  rw [token?, h, Option.bind_some] at ht
  exact List.length_pos_of_mem (SortedMap.mem_toList_iff.2 ht)

theorem StrictStore.WellFormed.isEmpty_iff {s : StrictStore} (hs : s.WellFormed) :
    s.isEmpty ↔ s.size = 0 := by
  rw [isEmpty, SortedMap.isEmpty, List.isEmpty_iff, size, SortedMap.values, List.foldr_map]
  refine ⟨?_, ?_⟩
  · intro h
    rw [h]
    rfl
  · intro h
    cases hl : s.kinds.toList with
    | nil => rfl
    | cons e es =>
      have hpos := hs.size_pos (SortedMap.mem_toList_iff.1 (hl ▸ List.mem_cons_self))
      rw [hl, List.foldr_cons] at h
      omega

theorem LooseStore.isEmpty_iff (s : LooseStore) : s.isEmpty ↔ s.size = 0 := by
  rw [isEmpty, SortedMap.isEmpty, List.isEmpty_iff, size, SortedMap.size, List.length_eq_zero_iff]

namespace Lexicon

theorem isEmpty_iff {d : Lexicon} (hs : d.strict.WellFormed) : d.isEmpty ↔ d.tokenCount = 0 := by
  rw [isEmpty, Bool.and_eq_true, d.loose.isEmpty_iff, hs.isEmpty_iff, tokenCount]
  omega

/-- Whatever is registered in an empty store of either sort, and whether it is accepted or
refused, the store satisfies its invariant; a lexicon of two such stores is empty exactly when it
counts no tokens. -/
theorem registrations_wellFormed (locale locale₁ locale₂ : String)
    (rs : List LooseStore.Registration) (ss : List StrictStore.Registration) :
    ((LooseStore.empty locale₁).attemptAll rs).WellFormed ∧
      ((StrictStore.empty locale₂).attemptAll ss).WellFormed ∧
      ((⟨locale, (LooseStore.empty locale₁).attemptAll rs,
          (StrictStore.empty locale₂).attemptAll ss⟩ : Lexicon).isEmpty ↔
        (⟨locale, (LooseStore.empty locale₁).attemptAll rs,
          (StrictStore.empty locale₂).attemptAll ss⟩ : Lexicon).tokenCount = 0) :=
  have hs := StrictStore.wellFormed_attemptAll locale₂ ss
  ⟨LooseStore.wellFormed_attemptAll locale₁ rs, hs, isEmpty_iff hs⟩

/-! ## Built lexicons -/

/-- A lexicon whose stores come from empty ones by registrations. -/
structure Built (d : Lexicon) : Prop where
  loose : ∃ locale rs, d.loose = (LooseStore.empty locale).attemptAll rs
  strict : ∃ locale rs, d.strict = (StrictStore.empty locale).attemptAll rs

theorem built_empty (locale : String) : (empty locale).Built :=
  ⟨⟨locale, [], rfl⟩, ⟨locale, [], rfl⟩⟩

/-- Registers in the store of the given sort. -/
def register (d : Lexicon) (strict : Bool) (r : StrictStore.Registration) :
    Except LoadError Lexicon :=
  if strict then (d.strict.register r).map fun s => { d with strict := s }
  else (d.loose.register r.toLoose).map fun s => { d with loose := s }

theorem addToken_eq_register (d : Lexicon) (strict : Bool) (name kind description : String) :
    d.addToken strict name kind description =
      d.register strict (.addToken name kind description) := rfl

theorem addAlias_eq_register (d : Lexicon) (strict : Bool) (name target kind : String) :
    d.addAlias strict name target kind = d.register strict (.addAlias name target kind) := rfl

theorem setDefault_eq_register (d : Lexicon) (strict : Bool) (kind name : String) :
    d.setDefault strict kind name = d.register strict (.setDefault kind name) := rfl

namespace Built

variable {d d' : Lexicon}

theorem wellFormed_loose (hd : d.Built) : d.loose.WellFormed := by
  obtain ⟨locale, rs, h⟩ := hd.loose
  exact h ▸ LooseStore.wellFormed_attemptAll locale rs

theorem wellFormed_strict (hd : d.Built) : d.strict.WellFormed := by
  obtain ⟨locale, rs, h⟩ := hd.strict
  exact h ▸ StrictStore.wellFormed_attemptAll locale rs

/-- No loose kind is named like a strict one with its mark. -/
theorem nodup_kindNames (hd : d.Built) : d.kindNames.Nodup := by
  have hinjective : Function.Injective putMark :=
    Function.LeftInverse.injective stripMark_putMark
  refine List.nodup_append.2 ⟨SortedMap.nodup_keys _, (SortedMap.nodup_keys _).map hinjective, ?_⟩
  intro key hkey key' hkey' heq
  obtain ⟨kind, -, rfl⟩ := List.mem_map.1 hkey'
  have hname := hd.wellFormed_loose.valid_kind (SortedMap.mem_keys_iff.1 hkey)
  have hmark := not_isMarked_of_isName hname
  rw [heq, isMarked_putMark] at hmark
  cases hmark

/-- An accepted registration keeps a lexicon built. -/
theorem register (hd : d.Built) {strict : Bool} {r : StrictStore.Registration}
    (h : d.register strict r = .ok d') : d'.Built := by
  cases strict with
  | false =>
    obtain ⟨s, hs, rfl⟩ := map_eq_ok_iff.1 h
    obtain ⟨locale, rs, hl⟩ := hd.loose
    refine ⟨⟨locale, rs ++ [r.toLoose], ?_⟩, hd.strict⟩
    rw [LooseStore.attemptAll_concat, ← hl, LooseStore.attempt, hs]
  | true =>
    obtain ⟨s, hs, rfl⟩ := map_eq_ok_iff.1 h
    obtain ⟨locale, rs, hl⟩ := hd.strict
    refine ⟨hd.loose, ⟨locale, rs ++ [r], ?_⟩⟩
    rw [StrictStore.attemptAll_concat, ← hl, StrictStore.attempt, hs]

end Built

/-! ## Namespaces -/

/-- The namespace of a kind: one of its own if it is strict, else the one of all loose kinds. -/
def space (strict : Bool) (kind : String) : Option String := if strict then some kind else none

/-- A namespace of a lexicon as a loose store. -/
def slice (d : Lexicon) : Option String → LooseStore
  | none => d.loose
  | some kind => d.strict.slice kind

theorem Built.slice {d : Lexicon} (hd : d.Built) (space : Option String) :
    (d.slice space).WellFormed := by
  cases space with
  | none => exact hd.wellFormed_loose
  | some kind => exact hd.wellFormed_strict.slice kind

/-- Whether a name is a token or alias of a kind of the given sort. -/
def hasToken (d : Lexicon) (strict : Bool) (name kind : String) : Bool :=
  if strict then d.strict.hasToken name kind else d.loose.hasToken name (some kind)

/-- Whether a name is a true token of a kind of the given sort. -/
def hasTrueToken (d : Lexicon) (strict : Bool) (name kind : String) : Bool :=
  if strict then d.strict.hasTrueToken name kind else d.loose.hasTrueToken name (some kind)

/-- Whether a name is an alias in a kind of the given sort. -/
def hasAlias (d : Lexicon) (strict : Bool) (name kind : String) : Bool :=
  if strict then d.strict.hasAlias name kind else d.loose.hasAlias name (some kind)

/-- A registration in a kind is that registration in its namespace. -/
theorem slice_register {d : Lexicon} (hd : d.Built) (strict : Bool)
    (r : StrictStore.Registration) :
    (d.register strict r).map (·.slice (space strict r.kind)) =
      (d.slice (space strict r.kind)).register r.toLoose := by
  cases strict with
  | false =>
    change ((d.loose.register r.toLoose).map _).map _ = d.loose.register r.toLoose
    cases d.loose.register r.toLoose with
    | error e => rfl
    | ok s => rfl
  | true =>
    change ((d.strict.register r).map _).map _ = (d.strict.slice r.kind).register r.toLoose
    rw [← StrictStore.slice_register (hd.wellFormed_strict.slice r.kind)]
    cases d.strict.register r with
    | error e => rfl
    | ok s => rfl

theorem register_slice_eq_ok {d d' : Lexicon} (hd : d.Built) {strict : Bool}
    {r : StrictStore.Registration} (h : d.register strict r = .ok d') :
    (d.slice (space strict r.kind)).register r.toLoose = .ok (d'.slice (space strict r.kind)) := by
  rw [← slice_register hd, h]
  rfl

theorem register_eq_error_iff {d : Lexicon} (hd : d.Built) {strict : Bool}
    {r : StrictStore.Registration} {e : LoadError} :
    d.register strict r = .error e ↔
      (d.slice (space strict r.kind)).register r.toLoose = .error e := by
  rw [← slice_register hd]
  exact map_eq_error_iff.symm

theorem exists_register_iff {d : Lexicon} (hd : d.Built) (strict : Bool)
    (r : StrictStore.Registration) :
    (∃ d', d.register strict r = .ok d') ↔
      ∃ s, (d.slice (space strict r.kind)).register r.toLoose = .ok s := by
  refine ⟨?_, ?_⟩
  · intro h
    obtain ⟨d', h⟩ := h
    exact ⟨_, register_slice_eq_ok hd h⟩
  · intro h
    obtain ⟨s, h⟩ := h
    rw [← slice_register hd] at h
    obtain ⟨d', hd', -⟩ := map_eq_ok_iff.1 h
    exact ⟨d', hd'⟩

/-- A registration in a kind leaves the other namespaces alone. -/
theorem slice_register_of_ne {d d' : Lexicon} {strict : Bool} {r : StrictStore.Registration}
    (h : d.register strict r = .ok d') {σ : Option String} (hne : σ ≠ space strict r.kind) :
    d'.slice σ = d.slice σ := by
  cases strict with
  | false =>
    obtain ⟨s, hs, rfl⟩ := map_eq_ok_iff.1 h
    cases σ with
    | none => exact absurd rfl hne
    | some kind => rfl
  | true =>
    obtain ⟨s, hs, rfl⟩ := map_eq_ok_iff.1 h
    cases σ with
    | none => rfl
    | some kind => exact StrictStore.slice_register_of_ne hs fun hk => hne (congrArg some hk)

theorem locale_register {d d' : Lexicon} {strict : Bool} {r : StrictStore.Registration}
    (h : d.register strict r = .ok d') : d'.locale = d.locale := by
  cases strict with
  | false =>
    obtain ⟨s, -, rfl⟩ := map_eq_ok_iff.1 h
    rfl
  | true =>
    obtain ⟨s, -, rfl⟩ := map_eq_ok_iff.1 h
    rfl

end Lexicon

end Inflection
