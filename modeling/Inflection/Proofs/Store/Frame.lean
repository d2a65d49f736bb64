import Inflection.Proofs.Change
import Inflection.Proofs.Store.Strict

/-!
# What a registration changes

A store is changed in place: a registration checks its arguments, and then writes to one map or to
two.  `registerInPlace` is the registration step by step, as a `Change`; it does what `register`
says, so a refused registration leaves nothing half done.  `StoreView` gathers all that can be asked
of a store, loose or strict, and `StoreView.Grown` says what is answered once a token is added.

## Main statements

* `LooseStore.does_registerInPlace`, `StrictStore.does_registerInPlace`: a registration is done as a
  whole or not at all.
* `LooseStore.grown_put`, `StrictStore.grown_insert`: a token that is added changes what is asked
  about its own name, and nothing else.
* `registration_outcome`: when a registration is accepted, and what it changes.
-/

namespace Inflection

/-! ## Lists that gain an item -/

/-- The second list is the first one, with an item put in at some place if a condition holds. -/
def Gains {α : Type} (l l' : List α) (a : α) (b : Bool) : Prop :=
  ∃ before after, l = before ++ after ∧ l' = before ++ (if b then [a] else []) ++ after

namespace Gains

variable {α β : Type} {l l' : List α} {a : α} {b : Bool}

theorem refl (l : List α) (a : α) : Gains l l a false := ⟨[], l, rfl, rfl⟩

theorem map (h : Gains l l' a b) (f : α → β) : Gains (l.map f) (l'.map f) (f a) b := by
  obtain ⟨before, after, rfl, rfl⟩ := h
  refine ⟨before.map f, after.map f, List.map_append, ?_⟩
  rw [List.map_append, List.map_append]
  cases b <;> rfl

theorem filter (h : Gains l l' a b) (p : α → Bool) :
    Gains (l.filter p) (l'.filter p) a (b && p a) := by
  obtain ⟨before, after, rfl, rfl⟩ := h
  refine ⟨before.filter p, after.filter p, List.filter_append .., ?_⟩
  rw [List.filter_append, List.filter_append]
  cases b with
  | false => rfl
  | true =>
    cases hp : p a with
    | false => rw [if_pos rfl, List.filter_cons_of_neg (by simp [hp])]; rfl
    | true => rw [if_pos rfl, List.filter_cons_of_pos hp]; rfl

theorem between (h : Gains l l' a b) (m n : List α) : Gains (m ++ l ++ n) (m ++ l' ++ n) a b := by
  obtain ⟨before, after, rfl, rfl⟩ := h
  exact ⟨m ++ before, after ++ n, by simp only [List.append_assoc],
    by simp only [List.append_assoc]⟩

theorem length (h : Gains l l' a true) : l'.length = l.length + 1 := by
  obtain ⟨before, after, rfl, rfl⟩ := h
  simp only [if_true, List.length_append, List.length_singleton]
  omega

end Gains

/-- A name that is new to a map puts one entry into its list. -/
theorem SortedMap.gains_insert {α : Type} {m : SortedMap α} {k : String} (h : m.get? k = none)
    (v : α) : Gains m.toList (m.insert k v).toList (k, v) true := by
  obtain ⟨before, after, hm, hinsert⟩ := m.exists_toList_insert k
  refine ⟨before, after, ?_, ?_⟩
  · rw [hm, h, Option.map_none, Option.toList_none, List.append_nil]
  · rw [hinsert, if_pos rfl, List.append_assoc, List.singleton_append]

/-! ## Views -/

/-- All that can be asked of a store in which tokens are looked up by keys. -/
@[ext]
structure StoreView (Key : Type) where
  locale : String
  token? : Key → Option Token
  default? : String → Option String
  hasKind : String → Bool
  tokensOf : Option String → List Token
  trueTokensOf : Option String → List Token
  aliasesOf : Option String → List Token
  kindNames : List String
  size : Nat

namespace StoreView

variable {Key : Type}

/-- A store has one more token, and is otherwise the same. -/
structure Grown (v v' : StoreView Key) (key : Key) (t : Token) : Prop where
  locale : v'.locale = v.locale
  token?_self : v'.token? key = some t
  token?_of_ne : ∀ key', key' ≠ key → v'.token? key' = v.token? key'
  default? : v'.default? = v.default?
  hasKind : ∀ kind, v'.hasKind kind = (t.kind == kind || v.hasKind kind)
  tokensOf : ∀ kind?, Gains (v.tokensOf kind?) (v'.tokensOf kind?) t (kind?.all (t.kind == ·))
  trueTokensOf : ∀ kind?, Gains (v.trueTokensOf kind?) (v'.trueTokensOf kind?) t
    (kind?.all (t.kind == ·) && !t.isAlias)
  aliasesOf : ∀ kind?, Gains (v.aliasesOf kind?) (v'.aliasesOf kind?) t
    (kind?.all (t.kind == ·) && t.isAlias)
  kindNames : Gains v.kindNames v'.kindNames t.kind (!v.hasKind t.kind)
  size : v'.size = v.size + 1

/-- The store with another default of a kind. -/
def withDefault (v : StoreView Key) (kind base : String) : StoreView Key :=
  { v with default? := fun kind' => if kind' = kind then some base else v.default? kind' }

end StoreView

/-! ## Loose stores -/

namespace LooseStore

variable {s s' : LooseStore}

/-- What can be asked of a loose store.  A token that is asked to be of a kind is the token of the
name, or none if that is of another kind. -/
def view (s : LooseStore) : StoreView String where
  locale := s.locale
  token? name := s.token? name none
  default? := s.default?
  hasKind := s.hasKind
  tokensOf := s.tokensOf
  trueTokensOf := s.trueTokensOf
  aliasesOf := s.aliasesOf
  kindNames := s.kindNames
  size := s.size

@[simp] theorem token?_none (s : LooseStore) (name : String) :
    s.token? name none = s.tokens.get? name := by
  rw [token?]
  cases s.tokens.get? name with
  | none => rfl
  | some t => rfl

/-- A token under an unused name changes what is asked about this name, and nothing else. -/
theorem grown_put {t : Token} (hunused : s.tokens.get? t.name = none) :
    s.view.Grown (s.put t).view t.name t := by
  have hvalues : Gains s.tokens.values (s.put t).tokens.values t true :=
    (SortedMap.gains_insert hunused t).map (·.2)
  have htokens (kind? : Option String) :
      Gains (s.tokensOf kind?) ((s.put t).tokensOf kind?) t (kind?.all (t.kind == ·)) :=
    hvalues.filter _
  constructor
  case locale => rfl
  case token?_self => exact (token?_none ..).trans (SortedMap.get?_insert_self ..)
  case token?_of_ne =>
    intro name hname
    refine (token?_none ..).trans (Eq.trans ?_ (token?_none ..).symm)
    rw [get?_put, if_neg hname.symm]
  case default? => exact funext (default?_put s t)
  case hasKind => exact hasKind_put s t
  case tokensOf => exact htokens
  case trueTokensOf => exact fun kind? => (htokens kind?).filter _
  case aliasesOf => exact fun kind? => (htokens kind?).filter _
  case kindNames =>
    change Gains s.kinds.keys (s.put t).kinds.keys t.kind (!s.hasKind t.kind)
    unfold put
    cases h : s.hasKind t.kind with
    | true => exact .refl _ _
    | false =>
      have hnone : s.kinds.get? t.kind = none := by
        simpa [hasKind, SortedMap.contains_eq_isSome] using h
      exact (SortedMap.gains_insert hnone none).map (·.1)
  case size => exact (SortedMap.gains_insert hunused t).length

/-- Another default of a kind changes nothing else. -/
theorem view_setDefault {kind base : String} (hkind : s.hasKind kind) :
    view { s with kinds := s.kinds.insert kind (some base) } = s.view.withDefault kind base := by
  obtain ⟨w, hw⟩ := Option.isSome_iff_exists.1 hkind
  refine StoreView.ext rfl rfl (funext fun kind' => ?_) (funext fun kind' => ?_) rfl rfl rfl
    (SortedMap.keys_insert hw _) rfl
  · simp only [view, StoreView.withDefault, default?_insert, eq_comm]
  · change SortedMap.contains _ kind' = s.hasKind kind'
    rw [SortedMap.contains_insert]
    by_cases h : kind = kind'
    · rw [← h, beq_self_eq_true, Bool.true_or, hkind]
    · rw [beq_eq_false_iff_ne.2 h, Bool.false_or, hasKind]

/-! ### Registrations in place -/

/-- Registers a true token in place: once it is checked, its kind is entered, and then the token. -/
def addTokenInPlace (name kind description : String) : Change LoadError LooseStore Unit := do
  ofExcept ((← get).checkFresh name kind)
  modify fun s => { s with
    kinds := if s.hasKind kind then s.kinds else s.kinds.insert kind none }
  modify fun s => { s with tokens := s.tokens.insert name (.plain name kind description) }

/-- Registers an alias in place, once its target is found and its name is checked. -/
def addAliasInPlace (name target : String) (kind? : Option String) :
    Change LoadError LooseStore Unit := do
  let s ← get
  match s.token? target kind? with
  | none => throw (.badAlias s.locale (kind?.getD "") name target .targetNotOfKind)
  | some found =>
    let base := (s.tokens.get? found.trueName).getD found
    ofExcept (s.checkFresh name base.kind)
    modify fun s => { s with tokens := s.tokens.insert name (.aliasOf name base) }

/-- Sets a default in place, once its token is found. -/
def setDefaultInPlace (kind name : String) : Change LoadError LooseStore Unit := do
  let s ← get
  match s.trueToken? name (some kind) with
  | none => throw (.badAlias s.locale kind defaultName name .defaultNotOfKind)
  | some base => modify fun s => { s with kinds := s.kinds.insert kind (some base) }

/-- Registers in place. -/
def registerInPlace : Registration → Change LoadError LooseStore Unit
  | .addToken name kind description => addTokenInPlace name kind description
  | .addAlias name target kind? => addAliasInPlace name target kind?
  | .setDefault kind name => setDefaultInPlace kind name

theorem does_addTokenInPlace (name kind description : String) :
    (addTokenInPlace name kind description).Does (·.addToken name kind description) := by
  intro s
  dsimp only
  unfold addTokenInPlace addToken
  rw [Change.outcome_get_bind, Change.outcome_ofExcept_bind]
  cases s.checkFresh name kind with
  | error e => rfl
  | ok => rfl

theorem does_addAliasInPlace (name target : String) (kind? : Option String) :
    (addAliasInPlace name target kind?).Does (·.addAlias name target kind?) := by
  intro s
  dsimp only
  unfold addAliasInPlace addAlias
  rw [Change.outcome_get_bind]
  cases s.token? target kind? with
  | none => rfl
  | some found =>
    dsimp only
    rw [Change.outcome_ofExcept_bind]
    cases s.checkFresh name ((s.tokens.get? found.trueName).getD found).kind with
    | error e => rfl
    | ok => rfl

theorem does_setDefaultInPlace (kind name : String) :
    (setDefaultInPlace kind name).Does (·.setDefault kind name) := by
  intro s
  dsimp only
  unfold setDefaultInPlace setDefault
  rw [Change.outcome_get_bind]
  cases s.trueToken? name (some kind) with
  | none => rfl
  | some base => rfl

/-- A registration in place is done as a whole or not at all. -/
theorem does_registerInPlace (r : Registration) : (registerInPlace r).Does (·.register r) := by
  cases r with
  | addToken name kind description => exact does_addTokenInPlace name kind description
  | addAlias name target kind? => exact does_addAliasInPlace name target kind?
  | setDefault kind name => exact does_setDefaultInPlace kind name

/-! ### Accepted registrations -/

/-- What a registration asks of a store. -/
def Admits (s : LooseStore) : Registration → Prop
  | .addToken name kind _ =>
    isName kind ∧ isName name ∧ name ≠ defaultName ∧ s.hasToken name none = false
  | .addAlias name target kind? =>
    s.hasToken target kind? ∧ isName name ∧ name ≠ defaultName ∧ s.hasToken name none = false
  | .setDefault kind name => s.hasToken name (some kind)

/-- What is changed by a registration that is accepted. -/
def Effects (s s' : LooseStore) : Registration → Prop
  | .addToken name kind description => s.view.Grown s'.view name (.plain name kind description)
  | .addAlias name target kind? => ∃ found, s.token? target kind? = some found ∧
    s.view.Grown s'.view name ⟨name, found.kind, found.description, some found.trueName⟩
  | .setDefault kind name => ∃ base, s.trueToken? name (some kind) = some base ∧
    s.hasTrueToken base (some kind) ∧ s'.view = s.view.withDefault kind base

theorem hasToken_eq_false_iff {name : String} :
    s.hasToken name none = false ↔ s.tokens.get? name = none := by
  rw [hasToken, token?_none, Option.isSome_eq_false_iff, Option.isNone_iff_eq_none]

theorem fresh_iff {name kind : String} : s.Fresh name kind ↔
    isName kind ∧ isName name ∧ name ≠ defaultName ∧ s.hasToken name none = false := by
  rw [hasToken_eq_false_iff]
  exact ⟨fun h => ⟨h.isName_kind, h.isName, h.ne_default, h.unused⟩,
    fun ⟨hk, hn, hd, hu⟩ => ⟨hk, hn, hd, hu⟩⟩

theorem exists_register_iff (hs : s.WellFormed) (r : Registration) :
    (∃ s', s.register r = .ok s') ↔ s.Admits r := by
  cases r with
  | addToken name kind description =>
    refine Iff.trans ?_ fresh_iff
    refine (exists_congr fun s' => addToken_eq_ok_iff).trans ?_
    rw [exists_and_left, and_iff_left ⟨_, rfl⟩]
  | addAlias name target kind? =>
    refine (exists_congr fun s' => addAlias_eq_ok_iff hs).trans ⟨?_, ?_⟩
    · rintro ⟨s', found, hfound, hfresh, -⟩
      exact ⟨Option.isSome_iff_exists.2 ⟨found, hfound⟩, (fresh_iff.1 hfresh).2⟩
    · rintro ⟨htarget, hname⟩
      obtain ⟨found, hfound⟩ := Option.isSome_iff_exists.1 htarget
      have hkind : isName found.kind :=
        hs.valid_kind (hs.hasKind (token?_eq_some_iff.1 hfound).1)
      exact ⟨_, found, hfound, fresh_iff.2 ⟨hkind, hname⟩, rfl⟩
  | setDefault kind name =>
    refine (exists_congr fun s' => setDefault_eq_ok_iff).trans ⟨?_, ?_⟩
    · rintro ⟨s', found, hfound, -⟩
      exact Option.isSome_iff_exists.2 ⟨found, hfound⟩
    · intro h
      obtain ⟨found, hfound⟩ := Option.isSome_iff_exists.1 h
      exact ⟨_, found, hfound, rfl⟩

theorem effects_of_register (hs : s.WellFormed) {r : Registration} (h : s.register r = .ok s') :
    s.Effects s' r := by
  cases r with
  | addToken name kind description =>
    obtain ⟨hfresh, rfl⟩ := addToken_eq_ok_iff.1 h
    have hunused : s.tokens.get? (Token.plain name kind description).name = none := hfresh.unused
    exact grown_put hunused
  | addAlias name target kind? =>
    obtain ⟨found, hfound, hfresh, rfl⟩ := (addAlias_eq_ok_iff hs).1 h
    refine ⟨found, hfound, ?_⟩
    have hunused : s.tokens.get? (⟨name, found.kind, found.description, some found.trueName⟩ :
        Token).name = none := hfresh.unused
    exact grown_put hunused
  | setDefault kind name =>
    obtain ⟨found, hfound, rfl⟩ := setDefault_eq_ok_iff.1 h
    obtain ⟨hget, hkind⟩ := token?_eq_some_iff.1 hfound
    have hk : found.kind = kind := hkind kind rfl
    obtain ⟨base, hbase, hnone, hbk, -⟩ := hs.exists_base hget
    refine ⟨found.trueName, congrArg (Option.map Token.trueName) hfound, ?_,
      view_setDefault (hk ▸ hs.hasKind hget)⟩
    have htoken : s.token? found.trueName (some kind) = some base :=
      token?_eq_some_iff.2 ⟨hbase, fun k h => hbk.trans (hk.trans (Option.some.inj h))⟩
    rw [hasTrueToken, htoken, Option.any_some, Token.isAlias, hnone]
    rfl

end LooseStore

/-! ## Strict stores -/

namespace StrictStore

variable {s s' : StrictStore} {name kind : String} {t : Token}

/-- What can be asked of a strict store. -/
def view (s : StrictStore) : StoreView (String × String) where
  locale := s.locale
  token? key := s.token? key.1 key.2
  default? := s.default?
  hasKind := s.hasKind
  tokensOf := s.tokensOf
  trueTokensOf := s.trueTokensOf
  aliasesOf := s.aliasesOf
  kindNames := s.kindNames
  size := s.size

/-- The tokens of a kind, none if the store does not have it. -/
def entry (s : StrictStore) (kind : String) : KindTokens := (s.kinds.get? kind).getD .empty

theorem get?_entry (s : StrictStore) (name kind : String) :
    (s.entry kind).tokens.get? name = s.token? name kind := by
  rw [entry, token?]
  cases s.kinds.get? kind with
  | none => rfl
  | some entry => rfl

theorem size_eq (s : StrictStore) : s.size = (s.tokensOf none).length := by
  have hall : (s.kinds.toList.filter fun e => (none : Option String).all (e.1 == ·)) =
      s.kinds.toList := List.filter_eq_self.2 fun _ _ => rfl
  rw [size, tokensOf, hall, SortedMap.values]
  induction s.kinds.toList with
  | nil => rfl
  | cons e es ih =>
    rw [List.map_cons, List.foldr_cons, List.flatMap_cons, List.length_append, ih, SortedMap.size,
      SortedMap.values, List.length_map]

/-- Where the tokens of a kind are listed, whatever they are. -/
theorem exists_tokensOf_insert (s : StrictStore) (kind : String) (kind? : Option String) :
    ∃ before after : List Token,
      s.tokensOf kind? = before ++
        (if kind?.all (kind == ·) then (s.entry kind).tokens.values else []) ++ after ∧
      ∀ entry, tokensOf { s with kinds := s.kinds.insert kind entry } kind? = before ++
        (if kind?.all (kind == ·) then entry.tokens.values else []) ++ after := by
  obtain ⟨before, after, hkinds, hinsert⟩ := s.kinds.exists_toList_insert kind
  have hone (entry : KindTokens) :
      ([(kind, entry)].filter fun e => kind?.all (e.1 == ·)).flatMap (·.2.tokens.values) =
        if kind?.all (kind == ·) then entry.tokens.values else [] := by
    cases h : kind?.all (kind == ·) with
    | false => rw [List.filter_cons_of_neg (by simp [h])]; rfl
    | true => rw [List.filter_cons_of_pos (by exact h)]; simp
  refine ⟨(before.filter fun e => kind?.all (e.1 == ·)).flatMap (·.2.tokens.values),
    (after.filter fun e => kind?.all (e.1 == ·)).flatMap (·.2.tokens.values), ?_, ?_⟩
  · rw [tokensOf, hkinds, List.filter_append, List.filter_append, List.flatMap_append,
      List.flatMap_append, entry]
    cases s.kinds.get? kind with
    | none => simp [KindTokens.empty, SortedMap.values]
    | some entry => rw [Option.map_some, Option.toList_some, hone, Option.getD_some]
  · intro entry
    change ((s.kinds.insert kind entry).toList.filter _).flatMap _ = _
    rw [hinsert, ← List.singleton_append, ← List.append_assoc, List.filter_append,
      List.filter_append, List.flatMap_append, List.flatMap_append, hone]

theorem get?_insert (s : StrictStore) (name kind : String) (t : Token) (key : String × String) :
    (s.insert kind name t).token? key.1 key.2 =
      if (name, kind) = key then some t else s.token? key.1 key.2 := by
  obtain ⟨name', kind'⟩ := key
  change ((SortedMap.insert _ kind _).get? kind').bind _ = _
  rw [SortedMap.get?_insert]
  by_cases hk : kind = kind'
  · subst hk
    rw [if_pos rfl, Option.bind_some]
    dsimp only
    rw [SortedMap.get?_insert, ← entry, get?_entry]
    by_cases hn : name = name'
    · subst hn
      rw [if_pos rfl, if_pos rfl]
    · rw [if_neg hn, if_neg fun h => hn (congrArg Prod.fst h)]
  · rw [if_neg hk, if_neg fun h => hk (congrArg Prod.snd h)]
    rfl

/-- A token under a name that its kind does not use changes what is asked about this name in this
kind, and nothing else. -/
theorem grown_insert (hkind : t.kind = kind) (hunused : s.token? name kind = none) :
    s.view.Grown (s.insert kind name t).view (name, kind) t := by
  have hvalues : Gains (s.entry kind).tokens.values
      ((s.entry kind).tokens.insert name t).values t true :=
    (SortedMap.gains_insert ((s.get?_entry name kind).trans hunused) t).map (·.2)
  have htokens (kind? : Option String) :
      Gains (s.tokensOf kind?) ((s.insert kind name t).tokensOf kind?) t
        (kind?.all (t.kind == ·)) := by
    obtain ⟨before, after, htokens, hinsert⟩ := s.exists_tokensOf_insert kind kind?
    rw [htokens, insert, hinsert, hkind]
    refine Gains.between ?_ before after
    cases kind?.all (kind == ·) with
    | false => exact .refl _ _
    | true => exact hvalues
  constructor
  case locale => rfl
  case token?_self => exact (get?_insert s name kind t (name, kind)).trans (if_pos rfl)
  case token?_of_ne =>
    exact fun key hkey => (get?_insert s name kind t key).trans (if_neg (Ne.symm hkey))
  case default? =>
    funext kind'
    change ((SortedMap.insert _ kind _).get? kind').bind _ = s.default? kind'
    rw [SortedMap.get?_insert, default?]
    by_cases h : kind = kind'
    · subst h
      rw [if_pos rfl]
      cases s.kinds.get? kind with
      | none => rfl
      | some entry => rfl
    · rw [if_neg h]
  case hasKind =>
    intro kind'
    rw [hkind]
    exact SortedMap.contains_insert ..
  case tokensOf => exact htokens
  case trueTokensOf => exact fun kind? => (htokens kind?).filter _
  case aliasesOf => exact fun kind? => (htokens kind?).filter _
  case kindNames =>
    rw [hkind]
    change Gains s.kinds.keys (SortedMap.insert _ kind _).keys kind (!s.hasKind kind)
    rw [hasKind, SortedMap.contains_eq_isSome]
    cases h : s.kinds.get? kind with
    | none => exact (SortedMap.gains_insert h _).map (·.1)
    | some w => exact SortedMap.keys_insert h _ ▸ .refl _ _
  case size =>
    change (s.insert kind name t).size = s.size + 1
    rw [size_eq, size_eq]
    exact (htokens none).length

/-- Another default of a kind changes nothing else. -/
theorem view_setDefault {entry : KindTokens} (hentry : s.kinds.get? kind = some entry)
    (base : String) :
    view { s with kinds := s.kinds.insert kind { entry with default? := some base } } =
      s.view.withDefault kind base := by
  have htokens (kind? : Option String) :
      tokensOf { s with kinds := s.kinds.insert kind { entry with default? := some base } } kind? =
        s.tokensOf kind? := by
    obtain ⟨before, after, htokens, hinsert⟩ := s.exists_tokensOf_insert kind kind?
    rw [htokens, hinsert, StrictStore.entry, hentry, Option.getD_some]
  refine StoreView.ext rfl (funext fun key => ?_) (funext fun kind' => ?_)
    (funext fun kind' => ?_) (funext htokens) (funext fun kind? => ?_) (funext fun kind? => ?_)
    (SortedMap.keys_insert hentry _) ?_
  · change (SortedMap.get? _ key.2).bind _ = (s.kinds.get? key.2).bind _
    rw [SortedMap.get?_insert]
    by_cases h : kind = key.2
    · rw [if_pos h, ← h, hentry, Option.bind_some, Option.bind_some]
    · rw [if_neg h]
  · change (SortedMap.get? _ kind').bind _ = if kind' = kind then some base else s.default? kind'
    rw [SortedMap.get?_insert]
    by_cases h : kind = kind'
    · rw [if_pos h, if_pos h.symm, Option.bind_some]
    · rw [if_neg h, if_neg (Ne.symm h), default?]
  · change SortedMap.contains _ kind' = s.hasKind kind'
    rw [SortedMap.contains_insert]
    by_cases h : kind = kind'
    · rw [← h, beq_self_eq_true, Bool.true_or, hasKind, SortedMap.contains_eq_isSome, hentry]
      rfl
    · rw [beq_eq_false_iff_ne.2 h, Bool.false_or, hasKind]
  · exact congrArg (List.filter _) (htokens kind?)
  · exact congrArg (List.filter _) (htokens kind?)
  · change size _ = s.size
    rw [size_eq, size_eq, htokens]

/-! ### Registrations in place -/

/-- The store with a kind entered, without tokens if it is new. -/
def enter (s : StrictStore) (kind : String) : StrictStore :=
  { s with kinds := if s.hasKind kind then s.kinds else s.kinds.insert kind .empty }

theorem insert_enter (s : StrictStore) (kind name : String) (t : Token) :
    (s.enter kind).insert kind name t = s.insert kind name t := by
  unfold enter insert hasKind
  rw [SortedMap.contains_eq_isSome]
  cases h : s.kinds.get? kind with
  | none =>
    dsimp only [Option.isSome_none]
    rw [if_neg Bool.false_ne_true, SortedMap.get?_insert_self, SortedMap.insert_insert]
    rfl
  | some entry =>
    dsimp only [Option.isSome_some]
    rw [if_pos rfl, h]

/-- Registers a true token in place: once it is checked, its kind is entered, and then the token. -/
def addTokenInPlace (name kind description : String) : Change LoadError StrictStore Unit := do
  ofExcept ((← get).checkFresh name kind)
  modify (·.enter kind)
  modify (·.insert kind name (.plain name kind description))

/-- Registers an alias in place, once its target is found and its name is checked. -/
def addAliasInPlace (name target kind : String) : Change LoadError StrictStore Unit := do
  let s ← get
  match s.token? target kind with
  | none => throw (.badAlias s.locale kind name target .targetNotOfKind)
  | some found =>
    let base := (s.token? found.trueName kind).getD found
    ofExcept (s.checkFresh name kind)
    modify (·.enter kind)
    modify (·.insert kind name (.aliasOf name base))

/-- Sets a default in place, once its token is found. -/
def setDefaultInPlace (kind name : String) : Change LoadError StrictStore Unit := do
  let s ← get
  match s.kinds.get? kind, s.trueToken? name kind with
  | some entry, some base =>
    modify fun s => { s with kinds := s.kinds.insert kind { entry with default? := some base } }
  | _, _ => throw (.badAlias s.locale kind defaultName name .defaultNotOfKind)

/-- Registers in place. -/
def registerInPlace : Registration → Change LoadError StrictStore Unit
  | .addToken name kind description => addTokenInPlace name kind description
  | .addAlias name target kind => addAliasInPlace name target kind
  | .setDefault kind name => setDefaultInPlace kind name

theorem does_addTokenInPlace (name kind description : String) :
    (addTokenInPlace name kind description).Does (·.addToken name kind description) := by
  intro s
  dsimp only
  unfold addTokenInPlace addToken
  rw [Change.outcome_get_bind, Change.outcome_ofExcept_bind, ← insert_enter]
  cases s.checkFresh name kind with
  | error e => rfl
  | ok => rfl

theorem does_addAliasInPlace (name target kind : String) :
    (addAliasInPlace name target kind).Does (·.addAlias name target kind) := by
  intro s
  dsimp only
  unfold addAliasInPlace addAlias
  rw [Change.outcome_get_bind]
  cases s.token? target kind with
  | none => rfl
  | some found =>
    dsimp only
    rw [Change.outcome_ofExcept_bind, ← insert_enter]
    cases s.checkFresh name kind with
    | error e => rfl
    | ok => rfl

theorem does_setDefaultInPlace (kind name : String) :
    (setDefaultInPlace kind name).Does (·.setDefault kind name) := by
  intro s
  dsimp only
  unfold setDefaultInPlace setDefault
  rw [Change.outcome_get_bind]
  cases s.kinds.get? kind with
  | none => rfl
  | some entry =>
    cases s.trueToken? name kind with
    | none => rfl
    | some base => rfl

/-- A registration in place is done as a whole or not at all. -/
theorem does_registerInPlace (r : Registration) : (registerInPlace r).Does (·.register r) := by
  cases r with
  | addToken name kind description => exact does_addTokenInPlace name kind description
  | addAlias name target kind => exact does_addAliasInPlace name target kind
  | setDefault kind name => exact does_setDefaultInPlace kind name

/-! ### Accepted registrations -/

/-- What a registration asks of a store. -/
def Admits (s : StrictStore) : Registration → Prop
  | .addToken name kind _ =>
    isName kind ∧ isName name ∧ name ≠ defaultName ∧ s.hasToken name kind = false
  | .addAlias name target kind =>
    s.hasToken target kind ∧ isName name ∧ name ≠ defaultName ∧ s.hasToken name kind = false
  | .setDefault kind name => s.hasToken name kind

/-- What is changed by a registration that is accepted. -/
def Effects (s s' : StrictStore) : Registration → Prop
  | .addToken name kind description =>
    s.view.Grown s'.view (name, kind) (.plain name kind description)
  | .addAlias name target kind => ∃ found, s.token? target kind = some found ∧
    s.view.Grown s'.view (name, kind) ⟨name, kind, found.description, some found.trueName⟩
  | .setDefault kind name => ∃ base, s.trueToken? name kind = some base ∧
    s.hasTrueToken base kind ∧ s'.view = s.view.withDefault kind base

/-- A registration asks of a store what it asks of the slice of its kind. -/
theorem admits_slice (hs : s.WellFormed) (r : Registration) :
    (s.slice r.kind).Admits r.toLoose ↔ s.Admits r := by
  have hasToken_some (name kind : String) :
      (s.slice kind).hasToken name (some kind) = s.hasToken name kind := by
    rw [LooseStore.hasToken, token?_slice (hs.slice kind), hasToken]
  have hasToken_none (name kind : String) :
      (s.slice kind).hasToken name none = s.hasToken name kind := by
    rw [LooseStore.hasToken, LooseStore.token?_none, get?_slice, hasToken]
  cases r with
  | addToken name kind description =>
    unfold LooseStore.Admits Admits Registration.toLoose Registration.kind
    dsimp only
    rw [hasToken_none]
  | addAlias name target kind =>
    unfold LooseStore.Admits Admits Registration.toLoose Registration.kind
    dsimp only
    rw [hasToken_some, hasToken_none]
  | setDefault kind name =>
    unfold LooseStore.Admits Admits Registration.toLoose Registration.kind
    dsimp only
    rw [hasToken_some]

theorem exists_register_iff (hs : s.WellFormed) (r : Registration) :
    (∃ s', s.register r = .ok s') ↔ s.Admits r := by
  rw [← admits_slice hs, ← LooseStore.exists_register_iff (hs.slice r.kind),
    ← slice_register (hs.slice r.kind)]
  simp only [map_eq_ok_iff]
  refine ⟨?_, ?_⟩
  · rintro ⟨s', h⟩
    exact ⟨_, s', h, rfl⟩
  · rintro ⟨-, s', h, -⟩
    exact ⟨s', h⟩

theorem effects_of_register (hs : s.WellFormed) {r : Registration} (h : s.register r = .ok s') :
    s.Effects s' r := by
  have hadmits : s.Admits r := (exists_register_iff hs r).1 ⟨s', h⟩
  have hunused {name kind : String} (h : s.hasToken name kind = false) :
      s.token? name kind = none := by
    rwa [hasToken, Option.isSome_eq_false_iff, Option.isNone_iff_eq_none] at h
  cases r with
  | addToken name kind description =>
    obtain ⟨-, -, h⟩ := bind_eq_ok_iff.1 h
    cases h
    exact grown_insert rfl (hunused hadmits.2.2.2)
  | addAlias name target kind =>
    change s.addAlias name target kind = .ok s' at h
    obtain ⟨found, hfound⟩ := Option.isSome_iff_exists.1 hadmits.1
    obtain ⟨base, hbase, -, hkind, hdescription⟩ :=
      (hs.slice kind).exists_base ((get?_slice s kind target).trans hfound)
    rw [get?_slice] at hbase
    unfold addAlias at h
    rw [hfound] at h
    obtain ⟨-, -, h⟩ := bind_eq_ok_iff.1 h
    cases h
    refine ⟨found, hfound, ?_⟩
    have halias : Token.aliasOf name base =
        ⟨name, kind, found.description, some found.trueName⟩ := by
      rw [Token.aliasOf, hkind, hdescription, (hs.name_eq hbase).1, (hs.name_eq hfound).2]
    rw [hbase, Option.getD_some, halias]
    exact grown_insert rfl (hunused hadmits.2.2.2)
  | setDefault kind name =>
    change s.setDefault kind name = .ok s' at h
    obtain ⟨found, hfound⟩ := Option.isSome_iff_exists.1 hadmits
    obtain ⟨entry, hentry, -⟩ := Option.bind_eq_some_iff.1 hfound
    obtain ⟨base, hbase, hnone, -⟩ :=
      (hs.slice kind).exists_base ((get?_slice s kind name).trans hfound)
    rw [get?_slice] at hbase
    have htrue : s.trueToken? name kind = some found.trueName :=
      congrArg (Option.map Token.trueName) hfound
    rw [setDefault, hentry, htrue] at h
    cases h
    refine ⟨found.trueName, htrue, ?_, view_setDefault hentry found.trueName⟩
    rw [hasTrueToken, hbase, Option.any_some, Token.isAlias, hnone]
    rfl

end StrictStore

/-- Whatever has been registered, in a store of either sort: a registration in place is accepted
exactly when the store admits it, and then changes what is asked about its own token or default,
and nothing else; otherwise it is refused and leaves the store as it was. -/
theorem registration_outcome (locale : String) :
    (∀ rs r, let s := (LooseStore.empty locale).attemptAll rs
      (s.Admits r ∧ ∃ s', s.register r = .ok s' ∧
          (LooseStore.registerInPlace r).outcome s = (.ok (), s') ∧ s.Effects s' r) ∨
        ¬s.Admits r ∧ ∃ e, s.register r = .error e ∧
          (LooseStore.registerInPlace r).outcome s = (.error e, s)) ∧
    ∀ rs r, let s := (StrictStore.empty locale).attemptAll rs
      (s.Admits r ∧ ∃ s', s.register r = .ok s' ∧
          (StrictStore.registerInPlace r).outcome s = (.ok (), s') ∧ s.Effects s' r) ∨
        ¬s.Admits r ∧ ∃ e, s.register r = .error e ∧
          (StrictStore.registerInPlace r).outcome s = (.error e, s) := by
  refine ⟨?_, ?_⟩
  · intro rs r s
    have hs : s.WellFormed := LooseStore.wellFormed_attemptAll locale rs
    have hdoes := LooseStore.does_registerInPlace r
    rw [← LooseStore.exists_register_iff hs]
    cases h : s.register r with
    | ok s' =>
      exact .inl ⟨⟨s', rfl⟩, s', rfl, hdoes.outcome_of_ok h, LooseStore.effects_of_register hs h⟩
    | error e => exact .inr ⟨fun ⟨_, h⟩ => (nomatch h), e, rfl, hdoes.outcome_of_error h⟩
  · intro rs r s
    have hs : s.WellFormed := StrictStore.wellFormed_attemptAll locale rs
    have hdoes := StrictStore.does_registerInPlace r
    rw [← StrictStore.exists_register_iff hs]
    cases h : s.register r with
    | ok s' =>
      exact .inl ⟨⟨s', rfl⟩, s', rfl, hdoes.outcome_of_ok h, StrictStore.effects_of_register hs h⟩
    | error e => exact .inr ⟨fun ⟨_, h⟩ => (nomatch h), e, rfl, hdoes.outcome_of_error h⟩

end Inflection
