import Inflection.Proofs.Lexicon.Loadable
import Inflection.Proofs.Store.Family
import Mathlib.Data.List.Basic
import Mathlib.Data.List.Induction

/-!
# The order of registrations

When registrations are all accepted, a name is registered once, and what it then means is fixed by
the registrations as a set: `LooseStore.Means` follows an alias from registration to registration
down to a true token.  The default of a kind is what the last registration of a default of the kind
means.  So registrations in another order give the same store, if all are accepted in that order too
and the defaults of each kind are still set one after the other.

## Main statements

* `LooseStore.get?_iff_means`: the tokens of the store are what the names mean.
* `LooseStore.default?_of_registerAll`: its defaults are what the last defaults mean.
* `registerAll_order`: the order of accepted registrations makes no difference, in a store of either
  sort.
-/

namespace Inflection

/-! ## Loose stores -/

namespace LooseStore

/-- The store after registrations that are all accepted, or why one of them is refused. -/
def registerAll (s : LooseStore) (rs : List Registration) : Except LoadError LooseStore :=
  rs.foldlM register s

variable {s s' : LooseStore} {rs rs' : List Registration} {r : Registration} {name : String}
  {t : Token}

theorem registerAll_concat_eq_ok_iff :
    s.registerAll (rs ++ [r]) = .ok s' ↔
      ∃ s₁, s.registerAll rs = .ok s₁ ∧ s₁.register r = .ok s' := by
  rw [registerAll, List.foldlM_append, bind_eq_ok_iff]
  refine exists_congr fun s₁ => and_congr_right fun _ => ?_
  rw [List.foldlM_cons, bind_eq_ok_iff]
  exact ⟨fun ⟨_, h, h'⟩ => by cases h'; exact h, fun h => ⟨s', h, rfl⟩⟩

theorem registerAll_append_eq_ok_iff {rs' : List Registration} :
    s.registerAll (rs ++ rs') = .ok s' ↔
      ∃ s₁, s.registerAll rs = .ok s₁ ∧ s₁.registerAll rs' = .ok s' := by
  rw [registerAll, List.foldlM_append, bind_eq_ok_iff]
  rfl

theorem WellFormed.registerAll (hs : s.WellFormed) (h : s.registerAll rs = .ok s') :
    s'.WellFormed := by
  induction rs generalizing s with
  | nil =>
    cases h
    exact hs
  | cons r rs ih =>
    obtain ⟨s₁, hr, h⟩ := bind_eq_ok_iff.1 h
    exact ih (hs.register hr) h

/-! ### What names mean -/

/-- What a name means in some registrations, whatever their order. -/
inductive Means (rs : List Registration) : String → Token → Prop
  | plain {name kind description : String} (h : .addToken name kind description ∈ rs) :
      Means rs name (.plain name kind description)
  | aliasOf {name target : String} {kind? : Option String} {found : Token}
      (h : .addAlias name target kind? ∈ rs) (hfound : Means rs target found) :
      Means rs name ⟨name, found.kind, found.description, some found.trueName⟩

theorem Means.mono (h : Means rs name t) (hsub : ∀ r ∈ rs, r ∈ rs') : Means rs' name t := by
  induction h with
  | plain h => exact .plain (hsub _ h)
  | aliasOf h _ ih => exact .aliasOf (hsub _ h) ih

/-- A registration keeps the tokens that are there. -/
theorem get?_of_register (hs : s.WellFormed) (h : s.register r = .ok s')
    (ht : s.tokens.get? name = some t) : s'.tokens.get? name = some t := by
  cases r with
  | addToken name' kind description =>
    obtain ⟨hfresh, rfl⟩ := addToken_eq_ok_iff.1 h
    exact get?_put_of_ne hfresh.unused ht
  | addAlias name' target kind? =>
    obtain ⟨found, -, hfresh, rfl⟩ := (addAlias_eq_ok_iff hs).1 h
    exact get?_put_of_ne hfresh.unused ht
  | setDefault kind name' =>
    obtain ⟨found, -, rfl⟩ := setDefault_eq_ok_iff.1 h
    exact ht

theorem get?_of_registerAll (hs : s.WellFormed) (h : s.registerAll rs = .ok s')
    (ht : s.tokens.get? name = some t) : s'.tokens.get? name = some t := by
  induction rs generalizing s with
  | nil =>
    cases h
    exact ht
  | cons r rs ih =>
    obtain ⟨s₁, hr, h⟩ := bind_eq_ok_iff.1 h
    exact ih (hs.register hr) h (get?_of_register hs hr ht)

/-- A token of the store after a registration was there before, or the registration adds it. -/
theorem means_of_register (hs : s.WellFormed) (h : s.register r = .ok s')
    (hmeans : ∀ {name t}, s.tokens.get? name = some t → Means rs name t)
    (ht : s'.tokens.get? name = some t) : Means (rs ++ [r]) name t := by
  have hold {name : String} {t : Token} (ht : s.tokens.get? name = some t) :
      Means (rs ++ [r]) name t := (hmeans ht).mono fun _ h => List.mem_append_left _ h
  have hmem : r ∈ rs ++ [r] := by simp
  cases r with
  | addToken name' kind description =>
    obtain ⟨-, rfl⟩ := addToken_eq_ok_iff.1 h
    rw [get?_put] at ht
    split at ht
    case isTrue hname =>
      cases ht
      cases hname
      exact .plain hmem
    case isFalse => exact hold ht
  | addAlias name' target kind? =>
    obtain ⟨found, hfound, -, rfl⟩ := (addAlias_eq_ok_iff hs).1 h
    rw [get?_put] at ht
    split at ht
    case isTrue hname =>
      cases ht
      cases hname
      exact .aliasOf hmem (hold (token?_eq_some_iff.1 hfound).1)
    case isFalse => exact hold ht
  | setDefault kind name' =>
    obtain ⟨found, -, rfl⟩ := setDefault_eq_ok_iff.1 h
    exact hold ht

theorem means_of_get? {locale : String} (h : (empty locale).registerAll rs = .ok s)
    (ht : s.tokens.get? name = some t) : Means rs name t := by
  induction rs using List.reverseRecOn generalizing s name t with
  | nil =>
    cases h
    cases ht
  | append_singleton rs r ih =>
    obtain ⟨s₁, h₁, h⟩ := registerAll_concat_eq_ok_iff.1 h
    exact means_of_register ((wellFormed_empty locale).registerAll h₁) h (ih h₁) ht

/-- Each of the registrations was accepted by a store, and the tokens were kept from there on. -/
theorem exists_register_of_mem (hs : s.WellFormed) (h : s.registerAll rs = .ok s') (hr : r ∈ rs) :
    ∃ s₁ s₂ : LooseStore, s₁.WellFormed ∧ s₁.register r = .ok s₂ ∧
      ∀ {name t}, s₂.tokens.get? name = some t → s'.tokens.get? name = some t := by
  obtain ⟨before, after, rfl⟩ := List.append_of_mem hr
  obtain ⟨s₁, h₁, h⟩ := registerAll_append_eq_ok_iff.1 h
  obtain ⟨s₂, h₂, h⟩ := bind_eq_ok_iff.1 h
  have hs₁ := hs.registerAll h₁
  exact ⟨s₁, s₂, hs₁, h₂, get?_of_registerAll (hs₁.register h₂) h⟩

theorem get?_of_means (hs : s.WellFormed) (h : s.registerAll rs = .ok s') (ht : Means rs name t) :
    s'.tokens.get? name = some t := by
  induction ht with
  | plain hmem =>
    obtain ⟨s₁, s₂, -, hr, hkept⟩ := exists_register_of_mem hs h hmem
    obtain ⟨-, rfl⟩ := addToken_eq_ok_iff.1 hr
    exact hkept ((get?_put ..).trans (if_pos rfl))
  | aliasOf hmem _ ih =>
    obtain ⟨s₁, s₂, hs₁, hr, hkept⟩ := exists_register_of_mem hs h hmem
    have hkept₁ {name : String} {t : Token} (ht : s₁.tokens.get? name = some t) :
        s'.tokens.get? name = some t := hkept (get?_of_register hs₁ hr ht)
    obtain ⟨found', hfound', -, rfl⟩ := (addAlias_eq_ok_iff hs₁).1 hr
    -- the target has not changed since the alias was registered
    have htarget := hkept₁ (token?_eq_some_iff.1 hfound').1
    rw [ih] at htarget
    cases htarget
    exact hkept ((get?_put ..).trans (if_pos rfl))

/-- The tokens of a store are what the names mean in its registrations. -/
theorem get?_iff_means {locale : String} (h : (empty locale).registerAll rs = .ok s) :
    s.tokens.get? name = some t ↔ Means rs name t :=
  ⟨means_of_get? h, get?_of_means (wellFormed_empty locale) h⟩

/-! ### Defaults -/

/-- The name that a registration makes the default of a kind. -/
def Registration.default? (kind : String) : Registration → Option String
  | .setDefault kind' name => if kind' = kind then some name else none
  | _ => none

/-- The names that some registrations make the default of a kind, one after the other. -/
def defaultsIn (kind : String) (rs : List Registration) : List String :=
  rs.filterMap (·.default? kind)

theorem defaultsIn_concat (kind : String) (rs : List Registration) (r : Registration) :
    defaultsIn kind (rs ++ [r]) = defaultsIn kind rs ++ (r.default? kind).toList := by
  rw [defaultsIn, List.filterMap_append, List.filterMap_cons, List.filterMap_nil, defaultsIn]
  cases r.default? kind <;> rfl

/-- A registration of a default sets the one of its kind, and any other registration none. -/
theorem default?_of_register (hs : s.WellFormed) (h : s.register r = .ok s') (kind : String) :
    r.default? kind = none ∧ s'.default? kind = s.default? kind ∨
      ∃ name t, r.default? kind = some name ∧ s'.tokens.get? name = some t ∧
        s'.default? kind = some t.trueName := by
  cases r with
  | addToken name kind' description =>
    obtain ⟨-, rfl⟩ := addToken_eq_ok_iff.1 h
    exact .inl ⟨rfl, default?_put ..⟩
  | addAlias name target kind? =>
    obtain ⟨found, -, -, rfl⟩ := (addAlias_eq_ok_iff hs).1 h
    exact .inl ⟨rfl, default?_put ..⟩
  | setDefault kind' name =>
    obtain ⟨found, hfound, rfl⟩ := setDefault_eq_ok_iff.1 h
    rw [default?_insert, Registration.default?]
    by_cases hk : kind' = kind
    · rw [if_pos hk, if_pos hk]
      exact .inr ⟨name, found, rfl, (token?_eq_some_iff.1 hfound).1, rfl⟩
    · rw [if_neg hk, if_neg hk]
      exact .inl ⟨rfl, rfl⟩

/-- A kind has a default once one is set, and then the name that was set last is a token. -/
theorem last_default_of_registerAll {locale : String} (h : (empty locale).registerAll rs = .ok s)
    (kind : String) :
    (defaultsIn kind rs).getLast? = none ∧ s.default? kind = none ∨
      ∃ name t, (defaultsIn kind rs).getLast? = some name ∧ s.tokens.get? name = some t ∧
        s.default? kind = some t.trueName := by
  induction rs using List.reverseRecOn generalizing s with
  | nil =>
    cases h
    exact .inl ⟨rfl, rfl⟩
  | append_singleton rs r ih =>
    obtain ⟨s₁, h₁, h⟩ := registerAll_concat_eq_ok_iff.1 h
    have hs₁ := (wellFormed_empty locale).registerAll h₁
    rw [defaultsIn_concat]
    rcases default?_of_register hs₁ h kind with ⟨hnone, hsame⟩ | ⟨name, t, hname, ht, hdefault⟩
    · rw [hnone, Option.toList_none, List.append_nil, hsame]
      refine (ih h₁).imp_right ?_
      rintro ⟨name, t, hlast, ht, hdefault⟩
      exact ⟨name, t, hlast, get?_of_register hs₁ h ht, hdefault⟩
    · rw [hname, Option.toList_some, List.getLast?_concat]
      exact .inr ⟨name, t, rfl, ht, hdefault⟩

/-- The default of a kind is the true token behind the name that was made its default last. -/
theorem default?_of_registerAll {locale : String} (h : (empty locale).registerAll rs = .ok s)
    (kind : String) : s.default? kind = (defaultsIn kind rs).getLast?.bind fun name =>
      (s.tokens.get? name).map Token.trueName := by
  rcases last_default_of_registerAll h kind with ⟨hlast, hd⟩ | ⟨name, t, hlast, ht, hd⟩
  · rw [hlast, hd, Option.bind_none]
  · rw [hlast, hd, Option.bind_some, ht, Option.map_some]

/-! ### The order of registrations -/

theorem locale_registerAll (h : s.registerAll rs = .ok s') : s'.locale = s.locale := by
  induction rs generalizing s with
  | nil =>
    cases h
    rfl
  | cons r rs ih =>
    obtain ⟨s₁, hr, h⟩ := bind_eq_ok_iff.1 h
    exact (ih h).trans (locale_register hr)

/-- Registrations that are accepted in two orders give the same store, if the defaults of each kind
are set in the same order. -/
theorem registerAll_perm {locale : String} (hperm : rs.Perm rs')
    (hdefaults : ∀ kind, defaultsIn kind rs = defaultsIn kind rs')
    (h : (empty locale).registerAll rs = .ok s) (h' : (empty locale).registerAll rs' = .ok s') :
    s = s' := by
  have hs := (wellFormed_empty locale).registerAll h
  have hs' := (wellFormed_empty locale).registerAll h'
  have hlocale : s.locale = s'.locale := (locale_registerAll h).trans (locale_registerAll h').symm
  have hget (name : String) : s.tokens.get? name = s'.tokens.get? name := by
    refine Option.ext fun t => ?_
    rw [get?_iff_means h, get?_iff_means h']
    exact ⟨fun ht => ht.mono fun _ => hperm.mem_iff.1, fun ht => ht.mono fun _ => hperm.mem_iff.2⟩
  refine ext_get? hlocale hget (fun kind => ?_) fun kind => ?_
  · rw [Bool.eq_iff_iff, hs.hasKind_iff, hs'.hasKind_iff]
    simp only [hget]
  · rw [default?_of_registerAll h, default?_of_registerAll h', hdefaults]
    simp only [hget]

end LooseStore

/-! ## Strict stores -/

namespace StrictStore

/-- The store after registrations that are all accepted, or why one of them is refused. -/
def registerAll (s : StrictStore) (rs : List Registration) : Except LoadError StrictStore :=
  rs.foldlM register s

/-- The names that some registrations make the default of a kind, one after the other. -/
def defaultsIn (kind : String) (rs : List Registration) : List String :=
  LooseStore.defaultsIn kind (rs.map Registration.toLoose)

variable {s s' : StrictStore} {rs rs' : List Registration}

/-- When registrations are all accepted, those in a kind are accepted in its slice. -/
theorem slice_registerAll (hs : s.WellFormed) (h : s.registerAll rs = .ok s') (kind : String) :
    (s.slice kind).registerAll (registrationsIn kind rs) = .ok (s'.slice kind) := by
  induction rs generalizing s with
  | nil =>
    cases h
    rfl
  | cons r rs ih =>
    obtain ⟨s₁, hr, h⟩ := bind_eq_ok_iff.1 h
    have hrest := ih (hs.register hr) h
    by_cases hk : r.kind = kind
    · subst hk
      have hslice := slice_register (hs.slice r.kind)
      rw [hr] at hslice
      rw [registrationsIn, List.filter_cons_of_pos (by simp), List.map_cons]
      exact bind_eq_ok_iff.2 ⟨s₁.slice r.kind, hslice.symm, hrest⟩
    · rw [registrationsIn, List.filter_cons_of_neg (by simpa using hk)]
      rw [slice_register_of_ne hr (Ne.symm hk)] at hrest
      exact hrest

theorem Registration.default?_toLoose_of_ne {r : Registration} {kind : String} (h : r.kind ≠ kind) :
    r.toLoose.default? kind = none := by
  cases r with
  | addToken name kind' description => rfl
  | addAlias name target kind' => rfl
  | setDefault kind' name => exact if_neg h

/-- The registrations in a kind set its defaults, and those of no other kind. -/
theorem defaultsIn_registrationsIn (kind kind' : String) (rs : List Registration) :
    LooseStore.defaultsIn kind' (registrationsIn kind rs) =
      if kind = kind' then defaultsIn kind rs else [] := by
  rw [LooseStore.defaultsIn, registrationsIn, defaultsIn, LooseStore.defaultsIn,
    List.filterMap_map, List.filterMap_map, List.filterMap_filter]
  split
  case isTrue hk =>
    subst hk
    refine List.filterMap_congr fun r _ => ?_
    by_cases h : r.kind = kind
    · rw [if_pos (decide_eq_true h)]
    · rw [if_neg (by simpa using h)]
      exact (Registration.default?_toLoose_of_ne h).symm
  case isFalse hk =>
    refine List.filterMap_eq_nil_iff.2 fun r _ => ?_
    by_cases h : r.kind = kind
    · rw [if_pos (decide_eq_true h)]
      exact Registration.default?_toLoose_of_ne (h ▸ hk)
    · rw [if_neg (by simpa using h)]

/-- A strict store is determined by its slices. -/
theorem ext_slice (h : ∀ kind, s.slice kind = s'.slice kind) : s = s' := by
  refine ext_get? ?_ (fun name kind => ?_) (fun kind => ?_) fun kind => ?_
  · exact (locale_slice s "").symm.trans ((congrArg LooseStore.locale (h "")).trans
      (locale_slice s' ""))
  · rw [← get?_slice, ← get?_slice, h]
  · have hhas (s : StrictStore) : s.hasKind kind = (s.slice kind).hasKind kind := by
      rw [hasKind_slice, beq_self_eq_true, Bool.true_and]
    rw [hhas, hhas, h]
  · have hdefault (s : StrictStore) : s.default? kind = (s.slice kind).default? kind := by
      rw [default?_slice, if_pos rfl]
    rw [hdefault, hdefault, h]

/-- Registrations that are accepted in two orders give the same store, if the defaults of each kind
are set in the same order. -/
theorem registerAll_perm {locale : String} (hperm : rs.Perm rs')
    (hdefaults : ∀ kind, defaultsIn kind rs = defaultsIn kind rs')
    (h : (empty locale).registerAll rs = .ok s) (h' : (empty locale).registerAll rs' = .ok s') :
    s = s' := by
  refine ext_slice fun kind => ?_
  have hslice := slice_registerAll (wellFormed_empty locale) h kind
  have hslice' := slice_registerAll (wellFormed_empty locale) h' kind
  refine LooseStore.registerAll_perm ((hperm.filter _).map _) (fun kind' => ?_) hslice hslice'
  change LooseStore.defaultsIn kind' (registrationsIn kind rs) =
    LooseStore.defaultsIn kind' (registrationsIn kind rs')
  rw [defaultsIn_registrationsIn, defaultsIn_registrationsIn, hdefaults]

end StrictStore

/-! ## Stores of either sort -/

/-- The order of registrations does not matter: two lists of registrations that are permutations of
one another, that are accepted as a whole by an empty store and that set the defaults of each kind
in the same order give the same store. -/
theorem registerAll_order (locale : String) :
    (∀ rs rs' s s', rs.Perm rs' →
      (∀ kind, LooseStore.defaultsIn kind rs = LooseStore.defaultsIn kind rs') →
      (LooseStore.empty locale).registerAll rs = .ok s →
      (LooseStore.empty locale).registerAll rs' = .ok s' → s = s') ∧
    ∀ rs rs' s s', rs.Perm rs' →
      (∀ kind, StrictStore.defaultsIn kind rs = StrictStore.defaultsIn kind rs') →
      (StrictStore.empty locale).registerAll rs = .ok s →
      (StrictStore.empty locale).registerAll rs' = .ok s' → s = s' :=
  ⟨fun _ _ _ _ => LooseStore.registerAll_perm, fun _ _ _ _ => StrictStore.registerAll_perm⟩

/-- An alias of an alias before and after another token, and two defaults of one kind or one default
of each of two kinds. -/
theorem registerAll_order_two_defaults :
    let rs : List LooseStore.Registration :=
      [.addToken "f" "gender" "female", .addAlias "lady" "f" none, .setDefault "gender" "lady",
        .addAlias "dame" "lady" none, .addToken "m" "gender" "male", .setDefault "gender" "m"]
    let rs' : List LooseStore.Registration :=
      [.addToken "m" "gender" "male", .addToken "f" "gender" "female", .addAlias "lady" "f" none,
        .addAlias "dame" "lady" none, .setDefault "gender" "lady", .setDefault "gender" "m"]
    let qs : List StrictStore.Registration :=
      [.addToken "f" "gender" "female", .addAlias "lady" "f" "gender", .addToken "f" "person" "she",
        .setDefault "person" "f", .setDefault "gender" "lady"]
    let qs' : List StrictStore.Registration :=
      [.addToken "f" "person" "she", .addToken "f" "gender" "female",
        .addAlias "lady" "f" "gender", .setDefault "gender" "lady", .setDefault "person" "f"]
    (∃ s, (LooseStore.empty "en").registerAll rs = .ok s ∧
      (LooseStore.empty "en").registerAll rs' = .ok s) ∧
    ∃ s, (StrictStore.empty "en").registerAll qs = .ok s ∧
      (StrictStore.empty "en").registerAll qs' = .ok s := by
  intro rs rs' qs qs'
  obtain ⟨hloose, hstrict⟩ := registerAll_order "en"
  have h : (LooseStore.empty "en").registerAll rs = .ok (.attemptAll (.empty "en") rs) := by
    decide +kernel
  have h' : (LooseStore.empty "en").registerAll rs' = .ok (.attemptAll (.empty "en") rs') := by
    decide +kernel
  have k : (StrictStore.empty "en").registerAll qs = .ok (.attemptAll (.empty "en") qs) := by
    decide +kernel
  have k' : (StrictStore.empty "en").registerAll qs' = .ok (.attemptAll (.empty "en") qs') := by
    decide +kernel
  have hdefaults (kind : String) : StrictStore.defaultsIn kind qs =
      StrictStore.defaultsIn kind qs' := by
    by_cases hgender : "gender" = kind
    · subst hgender
      decide
    · by_cases hperson : "person" = kind
      · subst hperson
        decide
      · simp [qs, qs', StrictStore.defaultsIn, LooseStore.defaultsIn,
          LooseStore.Registration.default?, StrictStore.Registration.toLoose, hgender, hperson]
  rw [hloose rs rs' _ _ (by decide) (fun _ => rfl) h h'] at h
  rw [hstrict qs qs' _ _ (by decide) hdefaults k k'] at k
  exact ⟨⟨_, h, h'⟩, _, k, k'⟩

end Inflection
