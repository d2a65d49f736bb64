import Inflection.Proofs.Store.Loose
import Inflection.Store.Strict

/-!
# The invariant of strict stores

A strict store is a family of loose stores, one for each kind: `slice s kind` is the kind as a
loose store of its own, and a registration in a kind is that registration in its slice.  So the
invariant of strict stores comes from the one of loose stores.

## Main statements

* `slice_register`: a registration in a kind, accepted or refused, is one in the slice.
* `slice_register_of_ne`: it leaves the other slices alone.
* `wellFormed_iff_slice`: the invariant holds when it holds of every slice.
* `wellFormed_attemptAll`: the invariant after any registrations, accepted or refused.
-/

namespace Inflection.StrictStore

/-! ## Slices -/

/-- One kind of the store, as a loose store. -/
def slice (s : StrictStore) (kind : String) : LooseStore :=
  match s.kinds.get? kind with
  | none => .empty s.locale
  | some entry => ⟨s.locale, entry.tokens, SortedMap.insert ∅ kind entry.default?⟩

theorem slice_of_none {s : StrictStore} {kind : String} (h : s.kinds.get? kind = none) :
    s.slice kind = .empty s.locale := by
  rw [slice, h]

theorem slice_of_some {s : StrictStore} {kind : String} {entry : KindTokens}
    (h : s.kinds.get? kind = some entry) :
    s.slice kind = ⟨s.locale, entry.tokens, SortedMap.insert ∅ kind entry.default?⟩ := by
  rw [slice, h]

/-- A slice depends on the tokens and the default of its kind alone. -/
theorem slice_congr {s s' : StrictStore} {kind : String} (hl : s'.locale = s.locale)
    (hk : s'.kinds.get? kind = s.kinds.get? kind) : s'.slice kind = s.slice kind := by
  rw [slice, slice, hk, hl]

@[simp] theorem locale_slice (s : StrictStore) (kind : String) :
    (s.slice kind).locale = s.locale := by
  cases h : s.kinds.get? kind with
  | none => rw [slice_of_none h]; rfl
  | some entry => rw [slice_of_some h]

@[simp] theorem get?_slice (s : StrictStore) (kind name : String) :
    (s.slice kind).tokens.get? name = s.token? name kind := by
  cases h : s.kinds.get? kind with
  | none => rw [slice_of_none h, token?, h]; rfl
  | some entry => rw [slice_of_some h, token?, h]; rfl

theorem hasKind_slice (s : StrictStore) (kind kind' : String) :
    (s.slice kind).hasKind kind' = (kind == kind' && s.hasKind kind) := by
  cases h : s.kinds.get? kind with
  | none =>
    rw [slice_of_none h, hasKind, SortedMap.contains_eq_isSome, h]
    simp [LooseStore.hasKind, LooseStore.empty, SortedMap.contains]
  | some entry =>
    rw [slice_of_some h, LooseStore.hasKind, SortedMap.contains_insert, hasKind,
      SortedMap.contains_eq_isSome s.kinds, h]
    simp [SortedMap.contains]

theorem default?_slice (s : StrictStore) (kind kind' : String) :
    (s.slice kind).default? kind' = if kind = kind' then s.default? kind else none := by
  cases h : s.kinds.get? kind with
  | none =>
    rw [slice_of_none h, default?, h]
    simp [LooseStore.default?, LooseStore.empty]
  | some entry =>
    rw [slice_of_some h, LooseStore.default?, SortedMap.get?_insert, default?, h]
    split
    · rfl
    · rfl

theorem slice_empty (locale kind : String) : (empty locale).slice kind = .empty locale := rfl

/-! ## The invariant -/

/-- The invariant of strict stores: each token stands under its own name and kind, aliases and
defaults name true tokens of their kind, and every kind has a true token. -/
structure WellFormed (s : StrictStore) : Prop where
  name_eq : ∀ {name kind t}, s.token? name kind = some t → t.name = name ∧ t.kind = kind
  valid : ∀ {name kind t}, s.token? name kind = some t → isName name ∧ name ≠ defaultName
  valid_kind : ∀ {kind}, s.hasKind kind → isName kind
  target : ∀ {name kind t target}, s.token? name kind = some t → t.target? = some target →
    ∃ base, s.token? target kind = some base ∧ base.target? = none ∧
      base.description = t.description
  default : ∀ {kind name}, s.default? kind = some name →
    ∃ t, s.token? name kind = some t ∧ t.target? = none
  hasKind : ∀ {name kind t}, s.token? name kind = some t → s.hasKind kind
  base : ∀ {kind}, s.hasKind kind → ∃ name t, s.token? name kind = some t ∧ t.target? = none

theorem hasKind_of_token? {s : StrictStore} {name kind : String} {t : Token}
    (h : s.token? name kind = some t) : s.hasKind kind := by
  obtain ⟨entry, hentry, -⟩ := Option.bind_eq_some_iff.1 h
  rw [hasKind, SortedMap.contains_eq_isSome, hentry]
  rfl

/-- The kinds are those that have a token. -/
theorem WellFormed.hasKind_iff {s : StrictStore} (hs : s.WellFormed) {kind : String} :
    s.hasKind kind ↔ ∃ name t, s.token? name kind = some t := by
  refine ⟨?_, ?_⟩
  · intro hk
    obtain ⟨name, t, ht, -⟩ := hs.base hk
    exact ⟨name, t, ht⟩
  · intro h
    obtain ⟨name, t, ht⟩ := h
    exact hs.hasKind ht

/-- The tokens of a well-formed slice are of its kind. -/
theorem kind_eq_of_slice {s : StrictStore} {kind : String} (hs : (s.slice kind).WellFormed)
    {name : String} {t : Token} (h : s.token? name kind = some t) : t.kind = kind := by
  have := hs.hasKind ((get?_slice s kind name).trans h)
  rw [hasKind_slice, Bool.and_eq_true, beq_iff_eq] at this
  exact this.1.symm

theorem wellFormed_of_slice {s : StrictStore} (hs : ∀ kind, (s.slice kind).WellFormed) :
    s.WellFormed where
  name_eq {name kind t} h :=
    ⟨(hs kind).name_eq ((get?_slice s kind name).trans h), kind_eq_of_slice (hs kind) h⟩
  valid {name kind t} h := (hs kind).valid ((get?_slice s kind name).trans h)
  valid_kind {kind} h := (hs kind).valid_kind (by rw [hasKind_slice, h, beq_self_eq_true]; rfl)
  target {name kind t target} h ht := by
    obtain ⟨base, hbase, hnone, -, hdescription⟩ :=
      (hs kind).target ((get?_slice s kind name).trans h) ht
    exact ⟨base, (get?_slice s kind target).symm.trans hbase, hnone, hdescription⟩
  default {kind name} h := by
    obtain ⟨t, ht, hnone, -⟩ :=
      (hs kind).default ((default?_slice s kind kind).trans ((if_pos rfl).trans h))
    exact ⟨t, (get?_slice s kind name).symm.trans ht, hnone⟩
  hasKind := hasKind_of_token?
  base {kind} h := by
    have hslice : (s.slice kind).hasKind kind := by
      rw [hasKind_slice, h, beq_self_eq_true]
      rfl
    obtain ⟨name, t, ht, hnone, -⟩ := (hs kind).base hslice
    exact ⟨name, t, (get?_slice s kind name).symm.trans ht, hnone⟩

theorem WellFormed.slice {s : StrictStore} (hs : s.WellFormed) (kind : String) :
    (s.slice kind).WellFormed where
  name_eq h := (hs.name_eq ((get?_slice ..).symm.trans h)).1
  valid h := hs.valid ((get?_slice ..).symm.trans h)
  valid_kind {kind'} h := by
    rw [hasKind_slice, Bool.and_eq_true, beq_iff_eq] at h
    exact h.1 ▸ hs.valid_kind h.2
  target {name t target} h ht := by
    rw [get?_slice] at h
    obtain ⟨base, hbase, hnone, hdescription⟩ := hs.target h ht
    exact ⟨base, (get?_slice ..).trans hbase, hnone,
      (hs.name_eq hbase).2.trans (hs.name_eq h).2.symm, hdescription⟩
  default {kind' name} h := by
    rw [default?_slice] at h
    split at h
    case isTrue heq =>
      obtain ⟨t, ht, hnone⟩ := hs.default h
      exact ⟨t, (get?_slice ..).trans ht, hnone, (hs.name_eq ht).2.trans heq⟩
    case isFalse => cases h
  hasKind {name t} h := by
    rw [get?_slice] at h
    rw [hasKind_slice, (hs.name_eq h).2, beq_self_eq_true]
    exact hs.hasKind h
  base {kind'} h := by
    rw [hasKind_slice, Bool.and_eq_true, beq_iff_eq] at h
    obtain ⟨name, t, ht, hnone⟩ := hs.base h.2
    exact ⟨name, t, (get?_slice ..).trans ht, hnone, (hs.name_eq ht).2.trans h.1⟩

theorem wellFormed_iff_slice {s : StrictStore} :
    s.WellFormed ↔ ∀ kind, (s.slice kind).WellFormed :=
  ⟨WellFormed.slice, wellFormed_of_slice⟩

/-! ## Registrations in a slice -/

theorem checkFresh_slice {s : StrictStore} {kind : String} (hs : (s.slice kind).WellFormed)
    (name : String) : (s.slice kind).checkFresh name kind = s.checkFresh name kind := by
  unfold LooseStore.checkFresh checkFresh hasToken
  rw [locale_slice, get?_slice]
  cases h : s.token? name kind with
  | none => rfl
  | some t => simp only [kind_eq_of_slice hs h, Option.isSome_some, if_true]

theorem token?_slice {s : StrictStore} {kind : String} (hs : (s.slice kind).WellFormed)
    (name : String) : (s.slice kind).token? name (some kind) = s.token? name kind := by
  rw [LooseStore.token?, get?_slice]
  cases h : s.token? name kind with
  | none => rfl
  | some t => simp [kind_eq_of_slice hs h]

theorem slice_insert (s : StrictStore) {kind name : String} {t : Token} (hn : t.name = name)
    (hk : t.kind = kind) : (s.insert kind name t).slice kind = (s.slice kind).put t := by
  have hget : (s.insert kind name t).kinds.get? kind =
      some { (s.kinds.get? kind).getD .empty with
        tokens := ((s.kinds.get? kind).getD .empty).tokens.insert name t } :=
    SortedMap.get?_insert_self ..
  rw [slice_of_some hget, LooseStore.put, locale_slice, hasKind_slice, hk, hn,
    beq_self_eq_true, Bool.true_and, hasKind, SortedMap.contains_eq_isSome]
  cases h : s.kinds.get? kind with
  | none =>
    rw [slice_of_none h]
    rfl
  | some entry =>
    rw [slice_of_some h]
    rfl

theorem slice_insert_of_ne (s : StrictStore) {kind kind' : String} (name : String) (t : Token)
    (h : kind' ≠ kind) : (s.insert kind name t).slice kind' = s.slice kind' :=
  slice_congr rfl (SortedMap.get?_insert_of_ne _ _ h.symm)

theorem slice_addToken {s : StrictStore} {kind : String} (hs : (s.slice kind).WellFormed)
    (name description : String) :
    (s.addToken name kind description).map (·.slice kind) =
      (s.slice kind).addToken name kind description := by
  unfold addToken LooseStore.addToken
  rw [checkFresh_slice hs]
  cases s.checkFresh name kind with
  | error e => rfl
  | ok =>
    have := slice_insert s (t := .plain name kind description) rfl rfl
    exact congrArg Except.ok this

theorem slice_addAlias {s : StrictStore} {kind : String} (hs : (s.slice kind).WellFormed)
    (name target : String) :
    (s.addAlias name target kind).map (·.slice kind) =
      (s.slice kind).addAlias name target (some kind) := by
  unfold addAlias LooseStore.addAlias
  rw [token?_slice hs]
  cases hf : s.token? target kind with
  | none => simp [Except.map]
  | some found =>
    obtain ⟨base, hbase, hkind⟩ :
        ∃ base, (s.token? found.trueName kind).getD found = base ∧ base.kind = kind := by
      refine ⟨_, rfl, ?_⟩
      cases hb : s.token? found.trueName kind with
      | none => exact kind_eq_of_slice hs hf
      | some base => exact kind_eq_of_slice hs hb
    have hhas : (s.slice kind).hasKind kind := by
      rw [hasKind_slice, hasKind_of_token? hf, beq_self_eq_true]
      rfl
    simp only [get?_slice, hbase, hkind, checkFresh_slice hs]
    cases s.checkFresh name kind with
    | error e => rfl
    | ok =>
      have hname : (Token.aliasOf name base).name = name := rfl
      have hput := slice_insert s hname hkind
      have hkinds : (Token.aliasOf name base).kind = kind := hkind
      rw [LooseStore.put, hkinds, if_pos hhas] at hput
      exact congrArg Except.ok hput

theorem slice_setDefault {s : StrictStore} {kind : String} (hs : (s.slice kind).WellFormed)
    (name : String) :
    (s.setDefault kind name).map (·.slice kind) = (s.slice kind).setDefault kind name := by
  unfold setDefault LooseStore.setDefault trueToken? LooseStore.trueToken?
  rw [token?_slice hs]
  cases hf : s.token? name kind with
  | none => cases s.kinds.get? kind <;> simp [Except.map]
  | some found =>
    obtain ⟨entry, hentry, -⟩ := Option.bind_eq_some_iff.1 hf
    have hget := SortedMap.get?_insert_self s.kinds kind
      { entry with default? := some found.trueName }
    simp only [hentry, Option.map_some, Except.map]
    rw [slice_of_some hentry, slice_of_some hget, SortedMap.insert_insert]

/-- A registration in a kind is that registration in the slice of the kind. -/
theorem slice_register {s : StrictStore} {r : Registration}
    (hs : (s.slice r.kind).WellFormed) :
    (s.register r).map (·.slice r.kind) = (s.slice r.kind).register r.toLoose := by
  cases r with
  | addToken name kind description => exact slice_addToken hs name description
  | addAlias name target kind => exact slice_addAlias hs name target
  | setDefault kind name => exact slice_setDefault hs name

/-- A registration leaves the slices of other kinds alone. -/
theorem slice_register_of_ne {s s' : StrictStore} {r : Registration} {kind : String}
    (h : s.register r = .ok s') (hne : kind ≠ r.kind) : s'.slice kind = s.slice kind := by
  cases r with
  | addToken name kind' description =>
    obtain ⟨-, -, h⟩ := bind_eq_ok_iff.1 h
    cases h
    exact slice_insert_of_ne s name _ hne
  | addAlias name target kind' =>
    change s.addAlias name target kind' = .ok s' at h
    unfold addAlias at h
    split at h
    case h_1 => cases h
    case h_2 =>
      obtain ⟨-, -, h⟩ := bind_eq_ok_iff.1 h
      cases h
      exact slice_insert_of_ne s name _ hne
  | setDefault kind' name =>
    change s.setDefault kind' name = .ok s' at h
    unfold setDefault at h
    split at h
    case h_1 =>
      cases h
      exact slice_congr rfl (SortedMap.get?_insert_of_ne _ _ (Ne.symm hne))
    case h_2 => cases h

/-! ## Registrations keep the invariant -/

theorem wellFormed_empty (locale : String) : (empty locale).WellFormed :=
  wellFormed_of_slice fun kind => slice_empty locale kind ▸ LooseStore.wellFormed_empty locale

/-- An accepted registration keeps the invariant. -/
theorem WellFormed.register {s s' : StrictStore} (hs : s.WellFormed) {r : Registration}
    (h : s.register r = .ok s') : s'.WellFormed := by
  refine wellFormed_of_slice ?_
  intro kind
  by_cases hk : kind = r.kind
  · subst hk
    have hr := slice_register (hs.slice r.kind)
    rw [h] at hr
    exact (hs.slice r.kind).register hr.symm
  · exact slice_register_of_ne h hk ▸ hs.slice kind

theorem WellFormed.attempt {s : StrictStore} (hs : s.WellFormed) (r : Registration) :
    (s.attempt r).WellFormed := by
  unfold StrictStore.attempt
  split
  case h_1 h => exact hs.register h
  case h_2 => exact hs

theorem WellFormed.attemptAll {s : StrictStore} (hs : s.WellFormed) (rs : List Registration) :
    (s.attemptAll rs).WellFormed := by
  induction rs generalizing s with
  | nil => exact hs
  | cons r rs ih => exact ih (hs.attempt r)

/-- The invariant holds after any registrations, accepted or refused. -/
theorem wellFormed_attemptAll (locale : String) (rs : List Registration) :
    ((empty locale).attemptAll rs).WellFormed :=
  (wellFormed_empty locale).attemptAll rs

/-! ## The locale -/

theorem locale_register {s s' : StrictStore} (hs : s.WellFormed) {r : Registration}
    (h : s.register r = .ok s') : s'.locale = s.locale := by
  have hr := slice_register (hs.slice r.kind)
  rw [h] at hr
  have hlocale := LooseStore.locale_register hr.symm
  rwa [locale_slice, locale_slice] at hlocale

theorem WellFormed.locale_attempt {s : StrictStore} (hs : s.WellFormed) (r : Registration) :
    (s.attempt r).locale = s.locale := by
  unfold StrictStore.attempt
  split
  case h_1 h => exact locale_register hs h
  case h_2 => rfl

theorem WellFormed.locale_attemptAll {s : StrictStore} (hs : s.WellFormed)
    (rs : List Registration) : (s.attemptAll rs).locale = s.locale := by
  induction rs generalizing s with
  | nil => rfl
  | cons r rs ih => exact (ih (hs.attempt r)).trans (hs.locale_attempt r)

end Inflection.StrictStore
