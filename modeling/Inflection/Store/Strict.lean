import Inflection.Store.Loose

/-!
# Strict stores

Each strict kind of a locale has a namespace of its own, so one name may be a token of several
kinds.  Registrations and look-ups are those of a loose store, with the kind always given.
-/

namespace Inflection

/-- The tokens of one strict kind, by name, and its default. -/
structure KindTokens where
  tokens : SortedMap Token
  default? : Option String
deriving DecidableEq

/-- The kind without tokens. -/
def KindTokens.empty : KindTokens := ⟨∅, none⟩

/-- The strict kinds of a locale. -/
structure StrictStore where
  locale : String
  kinds : SortedMap KindTokens
deriving DecidableEq

namespace StrictStore

/-- The store without kinds. -/
def empty (locale : String) : StrictStore := ⟨locale, ∅⟩

/-! ## Looking up -/

/-- A token or alias of a kind. -/
def token? (s : StrictStore) (name kind : String) : Option Token :=
  (s.kinds.get? kind).bind (·.tokens.get? name)

/-- The kind itself, when it has the token or alias. -/
def kindOf? (s : StrictStore) (name kind : String) : Option String :=
  (s.token? name kind).map Token.kind

/-- The name of the true token behind a token or alias. -/
def trueToken? (s : StrictStore) (name kind : String) : Option String :=
  (s.token? name kind).map Token.trueName

/-- The description of a token or alias. -/
def description? (s : StrictStore) (name kind : String) : Option String :=
  (s.token? name kind).map Token.description

/-- The true token that an alias points at. -/
def target? (s : StrictStore) (name kind : String) : Option String :=
  (s.token? name kind).bind Token.target?

/-- The default of a kind. -/
def default? (s : StrictStore) (kind : String) : Option String :=
  (s.kinds.get? kind).bind KindTokens.default?

/-- Whether the store has a kind. -/
def hasKind (s : StrictStore) (kind : String) : Bool := s.kinds.contains kind

/-- Whether a name is a token or alias of a kind. -/
def hasToken (s : StrictStore) (name kind : String) : Bool := (s.token? name kind).isSome

/-- Whether a name is a true token of a kind. -/
def hasTrueToken (s : StrictStore) (name kind : String) : Bool :=
  (s.token? name kind).any (!·.isAlias)

/-- Whether a name is an alias in a kind. -/
def hasAlias (s : StrictStore) (name kind : String) : Bool :=
  (s.token? name kind).any (·.isAlias)

/-! ## Listing -/

/-- The tokens and aliases by kind, then by name, of one kind if one is given. -/
def tokensOf (s : StrictStore) (kind? : Option String) : List Token :=
  (s.kinds.toList.filter fun e => kind?.all (e.1 == ·)).flatMap (·.2.tokens.values)

/-- The true tokens by kind, then by name. -/
def trueTokensOf (s : StrictStore) (kind? : Option String) : List Token :=
  (s.tokensOf kind?).filter (!·.isAlias)

/-- The aliases by kind, then by name. -/
def aliasesOf (s : StrictStore) (kind? : Option String) : List Token :=
  (s.tokensOf kind?).filter (·.isAlias)

/-- The names of the kinds in order. -/
def kindNames (s : StrictStore) : List String := s.kinds.keys

/-- The number of tokens and aliases. -/
def size (s : StrictStore) : Nat :=
  s.kinds.values.foldr (fun entry n => entry.tokens.size + n) 0

/-- Whether the store has no kinds. -/
def isEmpty (s : StrictStore) : Bool := s.kinds.isEmpty

/-! ## Registration -/

/-- Refuses a kind or a name that is not valid, and a name that the kind has in use. -/
def checkFresh (s : StrictStore) (name kind : String) : Except LoadError Unit :=
  if !isName kind then .error (.badKind s.locale kind)
  else if !isName name || name == defaultName then
    .error (.badToken s.locale kind name .badName)
  else if s.hasToken name kind then .error (.duplicatedToken s.locale name kind kind)
  else .ok ()

/-- The store with a token put into a kind. -/
def insert (s : StrictStore) (kind name : String) (t : Token) : StrictStore :=
  let entry := (s.kinds.get? kind).getD .empty
  { s with kinds := s.kinds.insert kind { entry with tokens := entry.tokens.insert name t } }

/-- Registers a true token of a kind. -/
def addToken (s : StrictStore) (name kind description : String) :
    Except LoadError StrictStore := do
  s.checkFresh name kind
  return s.insert kind name (.plain name kind description)

/-- Registers an alias of a token of the same kind.  The alias of an alias points at the true
token. -/
def addAlias (s : StrictStore) (name target kind : String) : Except LoadError StrictStore :=
  match s.token? target kind with
  | none => .error (.badAlias s.locale kind name target .targetNotOfKind)
  | some found => do
    let base := (s.token? found.trueName kind).getD found
    s.checkFresh name kind
    return s.insert kind name (.aliasOf name base)

/-- Makes the true token behind a token or alias the default of its kind. -/
def setDefault (s : StrictStore) (kind name : String) : Except LoadError StrictStore :=
  match s.kinds.get? kind, s.trueToken? name kind with
  | some entry, some base =>
    .ok { s with kinds := s.kinds.insert kind { entry with default? := some base } }
  | _, _ => .error (.badAlias s.locale kind defaultName name .defaultNotOfKind)

/-- A registration. -/
inductive Registration where
  | addToken (name kind description : String)
  | addAlias (name target kind : String)
  | setDefault (kind name : String)
deriving DecidableEq, Repr

namespace Registration

/-- The kind that a registration is about. -/
def kind : Registration → String
  | addToken _ k _ => k
  | addAlias _ _ k => k
  | setDefault k _ => k

/-- The same registration in a loose store. -/
def toLoose : Registration → LooseStore.Registration
  | addToken name k description => .addToken name k description
  | addAlias name target k => .addAlias name target (some k)
  | setDefault k name => .setDefault k name

end Registration

/-- The store after a registration, or why it is refused. -/
def register (s : StrictStore) : Registration → Except LoadError StrictStore
  | .addToken name kind description => s.addToken name kind description
  | .addAlias name target kind => s.addAlias name target kind
  | .setDefault kind name => s.setDefault kind name

/-- The store after a registration that may be refused. -/
def attempt (s : StrictStore) (r : Registration) : StrictStore :=
  match s.register r with
  | .ok s' => s'
  | .error _ => s

/-- The store after some registrations, of which the refused ones change nothing. -/
def attemptAll (s : StrictStore) (rs : List Registration) : StrictStore := rs.foldl attempt s

end StrictStore

end Inflection
