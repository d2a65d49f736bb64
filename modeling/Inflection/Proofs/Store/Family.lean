import Inflection.Proofs.Store.Strict

/-!
# Strict stores as families of loose stores

Each kind of a strict store lives by itself.  When a strict store has been built by registrations,
its slice at a kind is the loose store that received the registrations in this kind alone; so it
accepts and refuses what that store does, and answers what that store answers about its kind.

## Main statements

* `slice_attemptAll`: the slice of a strict store is built by the registrations in its kind.
* `repliesIn_eq_replies`: these are accepted and refused as in the slice.
* `attemptAll_slicewise`: a strict store replies and answers like independent loose stores, one for
  each kind.
-/

namespace Inflection

/-! ## Replies -/

/-- Whether a loose store accepts a registration, or why not. -/
def LooseStore.reply (s : LooseStore) (r : Registration) : Except LoadError Unit :=
  (s.register r).map fun _ => ()

/-- What a loose store replies to some registrations, one after the other. -/
def LooseStore.replies (s : LooseStore) : List Registration → List (Except LoadError Unit)
  | [] => []
  | r :: rs => s.reply r :: (s.attempt r).replies rs

namespace StrictStore

/-- Whether a strict store accepts a registration, or why not. -/
def reply (s : StrictStore) (r : Registration) : Except LoadError Unit :=
  (s.register r).map fun _ => ()

/-- What a strict store replies to those of some registrations that are in a given kind. -/
def repliesIn (kind : String) (s : StrictStore) : List Registration → List (Except LoadError Unit)
  | [] => []
  | r :: rs =>
    if r.kind = kind then s.reply r :: (s.attempt r).repliesIn kind rs
    else (s.attempt r).repliesIn kind rs

/-- The registrations in a given kind, as registrations of a loose store. -/
def registrationsIn (kind : String) (rs : List Registration) : List LooseStore.Registration :=
  (rs.filter (·.kind = kind)).map Registration.toLoose

/-! ## Registrations, one kind at a time -/

theorem slice_attempt {s : StrictStore} (hs : s.WellFormed) (r : Registration) :
    (s.attempt r).slice r.kind = (s.slice r.kind).attempt r.toLoose := by
  rw [attempt, LooseStore.attempt, ← slice_register (hs.slice r.kind)]
  cases s.register r with
  | error e => rfl
  | ok s' => rfl

theorem slice_attempt_of_ne (s : StrictStore) {r : Registration} {kind : String}
    (h : r.kind ≠ kind) : (s.attempt r).slice kind = s.slice kind := by
  unfold attempt
  split
  case h_1 hr => exact slice_register_of_ne hr h.symm
  case h_2 => rfl

theorem reply_slice {s : StrictStore} (hs : s.WellFormed) (r : Registration) :
    (s.slice r.kind).reply r.toLoose = s.reply r := by
  rw [reply, LooseStore.reply, ← slice_register (hs.slice r.kind)]
  cases s.register r with
  | error e => rfl
  | ok s' => rfl

/-- The slice of a strict store is built by the registrations in its kind. -/
theorem slice_attemptAll {s : StrictStore} (hs : s.WellFormed) (kind : String)
    (rs : List Registration) :
    (s.attemptAll rs).slice kind = (s.slice kind).attemptAll (registrationsIn kind rs) := by
  induction rs generalizing s with
  | nil => rfl
  | cons r rs ih =>
    have hnext := ih (hs.attempt r)
    by_cases h : r.kind = kind
    · subst h
      rw [registrationsIn, List.filter_cons_of_pos (by simp), List.map_cons]
      rw [slice_attempt hs] at hnext
      exact hnext
    · rw [registrationsIn, List.filter_cons_of_neg (by simpa using h)]
      rw [slice_attempt_of_ne s h] at hnext
      exact hnext

/-- The registrations in a kind are accepted and refused as in its slice. -/
theorem repliesIn_eq_replies {s : StrictStore} (hs : s.WellFormed) (kind : String)
    (rs : List Registration) :
    s.repliesIn kind rs = (s.slice kind).replies (registrationsIn kind rs) := by
  induction rs generalizing s with
  | nil => rfl
  | cons r rs ih =>
    have hnext := ih (hs.attempt r)
    by_cases h : r.kind = kind
    · subst h
      rw [repliesIn, if_pos rfl, registrationsIn, List.filter_cons_of_pos (by simp),
        List.map_cons, LooseStore.replies, reply_slice hs, hnext, slice_attempt hs]
      rfl
    · rw [repliesIn, if_neg h, registrationsIn, List.filter_cons_of_neg (by simpa using h),
        hnext, slice_attempt_of_ne s h]
      rfl

/-! ## Answers -/

/-- A loose store answers about a kind what a strict store does, when it is asked for this kind. -/
structure AnswersLike (s : StrictStore) (kind : String) (l : LooseStore) : Prop where
  token : ∀ name, s.token? name kind = l.token? name (some kind)
  kindOf : ∀ name, s.kindOf? name kind = l.kindOf? name (some kind)
  trueToken : ∀ name, s.trueToken? name kind = l.trueToken? name (some kind)
  description : ∀ name, s.description? name kind = l.description? name (some kind)
  target : ∀ name, s.target? name kind = l.target? name (some kind)
  default : s.default? kind = l.default? kind
  hasKind : s.hasKind kind = l.hasKind kind
  hasToken : ∀ name, s.hasToken name kind = l.hasToken name (some kind)
  hasTrueToken : ∀ name, s.hasTrueToken name kind = l.hasTrueToken name (some kind)
  hasAlias : ∀ name, s.hasAlias name kind = l.hasAlias name (some kind)
  tokens : s.tokensOf (some kind) = l.tokensOf (some kind)
  trueTokens : s.trueTokensOf (some kind) = l.trueTokensOf (some kind)
  aliases : s.aliasesOf (some kind) = l.aliasesOf (some kind)

/-- The tokens of a kind are listed in its slice in the same order. -/
theorem tokensOf_slice {s : StrictStore} (hs : s.WellFormed) (kind : String) :
    s.tokensOf (some kind) = (s.slice kind).tokensOf (some kind) := by
  have hkinds : (s.kinds.toList.filter fun e => (some kind).all (e.1 == ·)) =
      ((s.kinds.get? kind).map fun entry => (kind, entry)).toList :=
    SortedMap.filter_toList s.kinds kind
  rw [tokensOf, hkinds, LooseStore.tokensOf]
  cases h : s.kinds.get? kind with
  | none =>
    rw [slice_of_none h]
    rfl
  | some entry =>
    have hvalues : (s.slice kind).tokens.values = entry.tokens.values := by rw [slice_of_some h]
    have hall : ∀ t ∈ (s.slice kind).tokens.values, (some kind).all (t.kind == ·) := by
      intro t ht
      obtain ⟨name, hname⟩ := SortedMap.mem_values_iff.1 ht
      rw [get?_slice] at hname
      exact beq_iff_eq.2 (hs.name_eq hname).2
    rw [List.filter_eq_self.2 hall, hvalues]
    exact List.flatMap_singleton _ _

/-- The slice at a kind answers about it what the store does. -/
theorem WellFormed.answersLike_slice {s : StrictStore} (hs : s.WellFormed) (kind : String) :
    s.AnswersLike kind (s.slice kind) := by
  have htoken (name : String) := (token?_slice (hs.slice kind) name).symm
  have htokens := tokensOf_slice hs kind
  constructor
  case token => exact htoken
  case kindOf => exact fun name => congrArg (Option.map Token.kind) (htoken name)
  case trueToken => exact fun name => congrArg (Option.map Token.trueName) (htoken name)
  case description => exact fun name => congrArg (Option.map Token.description) (htoken name)
  case target => exact fun name => congrArg (Option.bind · Token.target?) (htoken name)
  case default => rw [default?_slice, if_pos rfl]
  case hasKind => rw [hasKind_slice, beq_self_eq_true, Bool.true_and]
  case hasToken => exact fun name => congrArg Option.isSome (htoken name)
  case hasTrueToken =>
    exact fun name => congrArg (Option.any fun t : Token => !t.isAlias) (htoken name)
  case hasAlias => exact fun name => congrArg (Option.any Token.isAlias) (htoken name)
  case tokens => exact htokens
  case trueTokens => exact congrArg (List.filter (!·.isAlias)) htokens
  case aliases => exact congrArg (List.filter (·.isAlias)) htokens

/-- Whatever is registered in an empty strict store, each kind is a loose store of its own: the
registrations in it are accepted, or refused for the same reason, as in an empty loose store that
receives them alone, and afterwards all that is asked about the kind has the same answer there. -/
theorem attemptAll_slicewise (locale kind : String) (rs : List Registration) :
    (empty locale).repliesIn kind rs = (LooseStore.empty locale).replies (registrationsIn kind rs) ∧
      ((empty locale).attemptAll rs).AnswersLike kind
        ((LooseStore.empty locale).attemptAll (registrationsIn kind rs)) := by
  have hs := wellFormed_empty locale
  refine ⟨repliesIn_eq_replies hs kind rs, ?_⟩
  rw [← slice_empty locale kind, ← slice_attemptAll hs]
  exact (hs.attemptAll rs).answersLike_slice kind

end StrictStore

end Inflection
