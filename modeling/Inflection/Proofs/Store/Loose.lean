import Inflection.Proofs.Except
import Inflection.SortedMap.Lemmas
import Inflection.Store.Loose

/-!
# The invariant of loose stores

`LooseStore.WellFormed` is what every loose store satisfies that registrations build from the
empty one.  `addToken_eq_ok_iff`, `addAlias_eq_ok_iff` and `setDefault_eq_ok_iff` say when a
registration is accepted and which store it gives; the invariant is read off them.  `Bars` says
why one is refused.

## Main statements

* `WellFormed.register`: an accepted registration keeps the invariant.
* `wellFormed_attemptAll`: the invariant after any registrations, accepted or refused.
-/

namespace Inflection.LooseStore

/-! ## The invariant -/

/-- The invariant of loose stores: each token stands under its own name, aliases and defaults name
true tokens of their kind, and the kinds are those of the true tokens. -/
structure WellFormed (s : LooseStore) : Prop where
  name_eq : ∀ {name t}, s.tokens.get? name = some t → t.name = name
  valid : ∀ {name t}, s.tokens.get? name = some t → isName name ∧ name ≠ defaultName
  valid_kind : ∀ {kind}, s.hasKind kind → isName kind
  target : ∀ {name t target}, s.tokens.get? name = some t → t.target? = some target →
    ∃ base, s.tokens.get? target = some base ∧ base.target? = none ∧ base.kind = t.kind ∧
      base.description = t.description
  default : ∀ {kind name}, s.default? kind = some name →
    ∃ t, s.tokens.get? name = some t ∧ t.target? = none ∧ t.kind = kind
  hasKind : ∀ {name t}, s.tokens.get? name = some t → s.hasKind t.kind
  base : ∀ {kind}, s.hasKind kind →
    ∃ name t, s.tokens.get? name = some t ∧ t.target? = none ∧ t.kind = kind

theorem wellFormed_empty (locale : String) : (empty locale).WellFormed where
  name_eq h := by cases h
  valid h := by cases h
  valid_kind h := by cases h
  target h := by cases h
  default h := by cases h
  hasKind h := by cases h
  base h := by cases h

/-- A token or alias leads to a true token of its kind and description. -/
theorem WellFormed.exists_base {s : LooseStore} (hs : s.WellFormed) {name : String} {t : Token}
    (h : s.tokens.get? name = some t) :
    ∃ base, s.tokens.get? t.trueName = some base ∧ base.target? = none ∧ base.kind = t.kind ∧
      base.description = t.description := by
  cases ht : t.target? with
  | none =>
    rw [Token.trueName, ht, Option.getD_none, hs.name_eq h]
    exact ⟨t, h, ht, rfl, rfl⟩
  | some target =>
    rw [Token.trueName, ht]
    exact hs.target h ht

/-- The kinds are those of the tokens. -/
theorem WellFormed.hasKind_iff {s : LooseStore} (hs : s.WellFormed) {kind : String} :
    s.hasKind kind ↔ ∃ name t, s.tokens.get? name = some t ∧ t.kind = kind := by
  refine ⟨?_, ?_⟩
  · intro hk
    obtain ⟨name, t, ht, -, hkind⟩ := hs.base hk
    exact ⟨name, t, ht, hkind⟩
  · intro h
    obtain ⟨name, t, ht, rfl⟩ := h
    exact hs.hasKind ht

/-! ## When a registration is accepted -/

theorem token?_eq_some_iff {s : LooseStore} {name : String} {kind? : Option String} {t : Token} :
    s.token? name kind? = some t ↔
      s.tokens.get? name = some t ∧ ∀ kind, kind? = some kind → t.kind = kind := by
  rw [token?, Option.filter_eq_some_iff]
  cases kind? <;> simp

/-- A name that may be registered in a kind. -/
structure Fresh (s : LooseStore) (name kind : String) : Prop where
  isName_kind : isName kind
  isName : isName name
  ne_default : name ≠ defaultName
  unused : s.tokens.get? name = none

theorem checkFresh_eq_ok_iff {s : LooseStore} {name kind : String} :
    s.checkFresh name kind = .ok () ↔ s.Fresh name kind := by
  unfold checkFresh
  refine ⟨?_, ?_⟩
  · intro h
    split at h
    · cases h
    · split at h
      · cases h
      · split at h
        · cases h
        · exact ⟨by simp_all, by simp_all, by simp_all, by assumption⟩
  · intro h
    obtain ⟨hk, hn, hd, hu⟩ := h
    simp [hk, hn, hd, hu]

/-- Why a name may not be registered in a kind: the kind has no name, the name is none or kept for
defaults, or it is in use. -/
inductive Bars (s : LooseStore) (name kind : String) : LoadError → Prop
  | badKind (hk : isName kind = false) : Bars s name kind (.badKind s.locale kind)
  | badName (hk : isName kind) (hn : ¬(isName name ∧ name ≠ defaultName)) :
      Bars s name kind (.badToken s.locale kind name .badName)
  | used {t : Token} (hk : isName kind) (hn : isName name) (hd : name ≠ defaultName)
      (hu : s.tokens.get? name = some t) :
      Bars s name kind (.duplicatedToken s.locale name kind t.kind)

theorem checkFresh_eq_error_iff {s : LooseStore} {name kind : String} {e : LoadError} :
    s.checkFresh name kind = .error e ↔ s.Bars name kind e := by
  unfold checkFresh
  refine ⟨?_, ?_⟩
  · intro h
    split at h
    case isTrue hk =>
      cases h
      exact .badKind (by simpa using hk)
    case isFalse hk =>
      have hkind : isName kind := by simpa using hk
      split at h
      case isTrue hn =>
        cases h
        refine .badName hkind ?_
        rintro ⟨hname, hd⟩
        simp [hname, hd] at hn
      case isFalse hn =>
        obtain ⟨hname, hd⟩ : isName name = true ∧ ¬name = defaultName := by simpa using hn
        split at h
        case h_1 t hu =>
          cases h
          exact .used hkind hname hd hu
        case h_2 => cases h
  · intro h
    cases h with
    | badKind hk => simp [hk]
    | badName hk hn =>
      have hbad : (!isName name || name == defaultName) = true := by
        cases hname : isName name with
        | false => rfl
        | true => simpa [hname] using hn
      simp [hk, hbad]
    | used hk hn hd hu => simp [hk, hn, hd, hu]

/-- The store with one more token. -/
def put (s : LooseStore) (t : Token) : LooseStore :=
  { s with
    tokens := s.tokens.insert t.name t
    kinds := if s.hasKind t.kind then s.kinds else s.kinds.insert t.kind none }

theorem addToken_eq_ok_iff {s s' : LooseStore} {name kind description : String} :
    s.addToken name kind description = .ok s' ↔
      s.Fresh name kind ∧ s' = s.put (.plain name kind description) := by
  rw [addToken, bind_eq_ok_iff, ← checkFresh_eq_ok_iff]
  refine ⟨?_, ?_⟩
  · intro h
    obtain ⟨⟨⟩, hf, h⟩ := h
    exact ⟨hf, (Except.ok.inj h).symm⟩
  · intro h
    obtain ⟨hf, rfl⟩ := h
    exact ⟨(), hf, rfl⟩

theorem addToken_eq_error_iff {s : LooseStore} {name kind description : String} {e : LoadError} :
    s.addToken name kind description = .error e ↔ s.Bars name kind e := by
  rw [addToken, bind_eq_error_iff, ← checkFresh_eq_error_iff]
  refine or_iff_left ?_
  rintro ⟨⟨⟩, -, h⟩
  cases h

theorem addAlias_eq_ok_iff {s s' : LooseStore} (hs : s.WellFormed) {name target : String}
    {kind? : Option String} :
    s.addAlias name target kind? = .ok s' ↔
      ∃ found, s.token? target kind? = some found ∧ s.Fresh name found.kind ∧
        s' = s.put ⟨name, found.kind, found.description, some found.trueName⟩ := by
  unfold addAlias
  cases hf : s.token? target kind? with
  | none => simp
  | some found =>
    have hget := (token?_eq_some_iff.1 hf).1
    obtain ⟨base, hbase, -, hkind, hdescription⟩ := hs.exists_base hget
    have halias : Token.aliasOf name base =
        ⟨name, found.kind, found.description, some found.trueName⟩ := by
      rw [Token.aliasOf, hkind, hdescription, hs.name_eq hbase]
    have hhas : s.hasKind found.kind := hs.hasKind hget
    simp only [hbase, Option.getD_some, bind_eq_ok_iff, hkind, halias, Option.some.injEq,
      exists_eq_left', ← checkFresh_eq_ok_iff]
    refine ⟨?_, ?_⟩
    · intro h
      obtain ⟨⟨⟩, hfresh, h⟩ := h
      refine ⟨hfresh, ?_⟩
      rw [← Except.ok.inj h, put, if_pos hhas]
    · intro h
      obtain ⟨hfresh, rfl⟩ := h
      refine ⟨(), hfresh, ?_⟩
      rw [put, if_pos hhas]
      rfl

/-- An alias of a token that is found is refused as any name in the kind of the token. -/
theorem addAlias_eq_error_iff {s : LooseStore} (hs : s.WellFormed) {name target : String}
    {kind? : Option String} {found : Token} (hfound : s.token? target kind? = some found)
    {e : LoadError} :
    s.addAlias name target kind? = .error e ↔ s.Bars name found.kind e := by
  obtain ⟨base, hbase, -, hkind, -⟩ := hs.exists_base (token?_eq_some_iff.1 hfound).1
  unfold addAlias
  simp only [hfound, hbase, Option.getD_some, hkind, bind_eq_error_iff, checkFresh_eq_error_iff]
  refine or_iff_left ?_
  rintro ⟨⟨⟩, -, h⟩
  cases h

theorem setDefault_eq_ok_iff {s s' : LooseStore} {kind name : String} :
    s.setDefault kind name = .ok s' ↔
      ∃ found, s.token? name (some kind) = some found ∧
        s' = { s with kinds := s.kinds.insert kind (some found.trueName) } := by
  unfold setDefault trueToken?
  cases hf : s.token? name (some kind) with
  | none => simp
  | some found => simp [eq_comm]

/-! ## Registrations keep the invariant -/

@[simp] theorem locale_put (s : LooseStore) (t : Token) : (s.put t).locale = s.locale := rfl

theorem get?_put (s : LooseStore) (t : Token) (name : String) :
    (s.put t).tokens.get? name = if t.name = name then some t else s.tokens.get? name :=
  SortedMap.get?_insert ..

theorem get?_put_of_ne {s : LooseStore} {t u : Token} {name : String}
    (hu : s.tokens.get? t.name = none) (h : s.tokens.get? name = some u) :
    (s.put t).tokens.get? name = some u := by
  rw [get?_put, if_neg, h]
  rintro rfl
  rw [hu] at h
  cases h

theorem hasKind_put (s : LooseStore) (t : Token) (kind : String) :
    (s.put t).hasKind kind = (t.kind == kind || s.hasKind kind) := by
  unfold put
  by_cases h : s.hasKind t.kind
  · by_cases hk : t.kind = kind
    · subst hk
      simp only [h, if_true, beq_self_eq_true, Bool.true_or]
      exact h
    · simp only [h, if_true, beq_eq_false_iff_ne.2 hk, Bool.false_or]
      rfl
  · simp only [h, Bool.false_eq_true, if_false]
    exact SortedMap.contains_insert ..

theorem default?_put (s : LooseStore) (t : Token) (kind : String) :
    (s.put t).default? kind = s.default? kind := by
  unfold put default?
  by_cases h : s.hasKind t.kind
  · simp [h]
  · simp only [h, Bool.false_eq_true, if_false, SortedMap.get?_insert]
    by_cases hk : t.kind = kind
    · subst hk
      have : s.kinds.get? t.kind = none := by
        simpa [hasKind, SortedMap.contains_eq_isSome] using h
      simp [this]
    · rw [if_neg hk]

theorem default?_insert (s : LooseStore) (kind base kind' : String) :
    default? { s with kinds := s.kinds.insert kind (some base) } kind' =
      if kind = kind' then some base else s.default? kind' := by
  rw [default?, SortedMap.get?_insert]
  split
  case isTrue => rfl
  case isFalse => rfl

/-- A fresh token may be put into a store when it is a true token, or points at one of its kind
with its description. -/
theorem WellFormed.put {s : LooseStore} (hs : s.WellFormed) {t : Token}
    (hf : s.Fresh t.name t.kind)
    (htarget : ∀ {target}, t.target? = some target → ∃ base, s.tokens.get? target = some base ∧
      base.target? = none ∧ base.kind = t.kind ∧ base.description = t.description)
    (hbase : t.target? = none ∨ s.hasKind t.kind) : (s.put t).WellFormed where
  name_eq {name u} h := by
    rw [get?_put] at h
    split at h
    case isTrue hname => rw [← hname, Option.some.inj h]
    case isFalse => exact hs.name_eq h
  valid {name u} h := by
    rw [get?_put] at h
    split at h
    case isTrue hname => exact hname ▸ ⟨hf.isName, hf.ne_default⟩
    case isFalse => exact hs.valid h
  valid_kind {kind} h := by
    rw [hasKind_put, Bool.or_eq_true, beq_iff_eq] at h
    rcases h with rfl | h
    · exact hf.isName_kind
    · exact hs.valid_kind h
  target {name u target} h hu := by
    have : ∃ base, s.tokens.get? target = some base ∧ base.target? = none ∧
        base.kind = u.kind ∧ base.description = u.description := by
      rw [get?_put] at h
      split at h
      case isTrue =>
        cases h
        exact htarget hu
      case isFalse => exact hs.target h hu
    obtain ⟨base, hget, hrest⟩ := this
    exact ⟨base, get?_put_of_ne hf.unused hget, hrest⟩
  default {kind name} h := by
    rw [default?_put] at h
    obtain ⟨u, hget, hrest⟩ := hs.default h
    exact ⟨u, get?_put_of_ne hf.unused hget, hrest⟩
  hasKind {name u} h := by
    rw [hasKind_put, Bool.or_eq_true, beq_iff_eq]
    rw [get?_put] at h
    split at h
    case isTrue =>
      cases h
      exact .inl rfl
    case isFalse => exact .inr (hs.hasKind h)
  base {kind} h := by
    rw [hasKind_put, Bool.or_eq_true, beq_iff_eq] at h
    have old (h : s.hasKind kind) : ∃ name u, (s.put t).tokens.get? name = some u ∧
        u.target? = none ∧ u.kind = kind := by
      obtain ⟨name, u, hget, hrest⟩ := hs.base h
      exact ⟨name, u, get?_put_of_ne hf.unused hget, hrest⟩
    rcases h with rfl | h
    · rcases hbase with hnone | hhas
      · exact ⟨t.name, t, by rw [get?_put, if_pos rfl], hnone, rfl⟩
      · exact old hhas
    · exact old h

theorem WellFormed.addToken {s s' : LooseStore} (hs : s.WellFormed)
    {name kind description : String} (h : s.addToken name kind description = .ok s') :
    s'.WellFormed := by
  obtain ⟨hf, rfl⟩ := addToken_eq_ok_iff.1 h
  exact hs.put hf (fun h => nomatch h) (.inl rfl)

theorem WellFormed.addAlias {s s' : LooseStore} (hs : s.WellFormed) {name target : String}
    {kind? : Option String} (h : s.addAlias name target kind? = .ok s') : s'.WellFormed := by
  obtain ⟨found, hfound, hf, rfl⟩ := (addAlias_eq_ok_iff hs).1 h
  have hget := (token?_eq_some_iff.1 hfound).1
  have hhas : s.hasKind found.kind := hs.hasKind hget
  refine hs.put hf ?_ (.inr hhas)
  intro target h
  cases h
  exact hs.exists_base hget

theorem WellFormed.setDefault {s s' : LooseStore} (hs : s.WellFormed) {kind name : String}
    (h : s.setDefault kind name = .ok s') : s'.WellFormed := by
  obtain ⟨found, hfound, rfl⟩ := setDefault_eq_ok_iff.1 h
  obtain ⟨hget, hkind⟩ := token?_eq_some_iff.1 hfound
  have hk : found.kind = kind := hkind kind rfl
  have hhas : s.hasKind kind := hk ▸ hs.hasKind hget
  have hsame (kind' : String) :
      LooseStore.hasKind { s with kinds := s.kinds.insert kind (some found.trueName) } kind' =
        s.hasKind kind' := by
    rw [LooseStore.hasKind, SortedMap.contains_insert]
    by_cases h : kind = kind'
    · subst h
      rw [beq_self_eq_true, Bool.true_or]
      exact hhas.symm
    · rw [beq_eq_false_iff_ne.2 h, Bool.false_or]
      rfl
  exact {
    name_eq := hs.name_eq
    valid := hs.valid
    valid_kind := fun h => hs.valid_kind (hsame _ ▸ h)
    target := hs.target
    default := fun {kind' name'} h => by
      rw [default?, SortedMap.get?_insert] at h
      split at h
      case isTrue heq =>
        obtain ⟨base, hbase, hnone, hbk, -⟩ := hs.exists_base hget
        cases h
        exact ⟨base, hbase, hnone, by rw [hbk, hk, heq]⟩
      case isFalse => exact hs.default h
    hasKind := fun h => hsame _ ▸ hs.hasKind h
    base := fun h => hs.base (hsame _ ▸ h) }

/-- An accepted registration keeps the invariant. -/
theorem WellFormed.register {s s' : LooseStore} (hs : s.WellFormed) {r : Registration}
    (h : s.register r = .ok s') : s'.WellFormed := by
  cases r with
  | addToken name kind description => exact hs.addToken h
  | addAlias name target kind? => exact hs.addAlias h
  | setDefault kind name => exact hs.setDefault h

theorem WellFormed.attempt {s : LooseStore} (hs : s.WellFormed) (r : Registration) :
    (s.attempt r).WellFormed := by
  unfold LooseStore.attempt
  split
  case h_1 h => exact hs.register h
  case h_2 => exact hs

theorem WellFormed.attemptAll {s : LooseStore} (hs : s.WellFormed) (rs : List Registration) :
    (s.attemptAll rs).WellFormed := by
  induction rs generalizing s with
  | nil => exact hs
  | cons r rs ih => exact ih (hs.attempt r)

/-- The invariant holds after any registrations, accepted or refused. -/
theorem wellFormed_attemptAll (locale : String) (rs : List Registration) :
    ((empty locale).attemptAll rs).WellFormed :=
  (wellFormed_empty locale).attemptAll rs

/-! ## Listed tokens -/

theorem mem_tokensOf_iff {s : LooseStore} {kind? : Option String} {t : Token} :
    t ∈ s.tokensOf kind? ↔ ∃ name, s.token? name kind? = some t := by
  rw [tokensOf, List.mem_filter, SortedMap.mem_values_iff, ← exists_and_right]
  refine exists_congr fun name => ?_
  rw [token?, Option.filter_eq_some_iff]

theorem WellFormed.nodup_names {s : LooseStore} (hs : s.WellFormed) (kind? : Option String) :
    ((s.tokensOf kind?).map Token.name).Nodup := by
  have hkeys : s.tokens.values.map Token.name = s.tokens.keys := by
    rw [SortedMap.values, SortedMap.keys, List.map_map]
    exact List.map_congr_left fun e he => hs.name_eq (SortedMap.mem_toList_iff.1 he)
  have hnodup : (s.tokens.values.map Token.name).Nodup := by
    rw [hkeys]
    exact s.tokens.nodup_keys
  exact hnodup.sublist (List.filter_sublist.map _)

/-! ## The locale -/

theorem locale_register {s s' : LooseStore} {r : Registration} (h : s.register r = .ok s') :
    s'.locale = s.locale := by
  cases r with
  | addToken name kind description =>
    obtain ⟨-, rfl⟩ := addToken_eq_ok_iff.1 h
    rfl
  | addAlias name target kind? =>
    change s.addAlias name target kind? = .ok s' at h
    unfold addAlias at h
    split at h
    case h_1 => cases h
    case h_2 =>
      obtain ⟨-, -, h⟩ := bind_eq_ok_iff.1 h
      cases h
      rfl
  | setDefault kind name =>
    obtain ⟨found, -, rfl⟩ := setDefault_eq_ok_iff.1 h
    rfl

@[simp] theorem locale_attempt (s : LooseStore) (r : Registration) :
    (s.attempt r).locale = s.locale := by
  unfold attempt
  split
  case h_1 h => exact locale_register h
  case h_2 => rfl

@[simp] theorem locale_attemptAll (s : LooseStore) (rs : List Registration) :
    (s.attemptAll rs).locale = s.locale := by
  induction rs generalizing s with
  | nil => rfl
  | cons r rs ih => exact (ih (s.attempt r)).trans (locale_attempt s r)

end Inflection.LooseStore
