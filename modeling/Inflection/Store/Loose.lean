import Inflection.LoadError
import Inflection.Name
import Inflection.SortedMap.Basic
import Inflection.Token

/-!
# Loose stores

The tokens of all loose kinds of a locale share one namespace, so a name alone says which kind it
belongs to.  Registrations are refused with a `LoadError` and then leave the store as it was;
look-ups never fail.
-/

namespace Inflection

/-- The tokens of the loose kinds of a locale, by name, and the default of each kind. -/
structure LooseStore where
  locale : String
  tokens : SortedMap Token
  kinds : SortedMap (Option String)
deriving DecidableEq

namespace LooseStore

/-- The store without tokens. -/
def empty (locale : String) : LooseStore := ⟨locale, ∅, ∅⟩

/-! ## Looking up -/

/-- A token or alias, asked to be of a kind if one is given. -/
def token? (s : LooseStore) (name : String) (kind? : Option String) : Option Token :=
  (s.tokens.get? name).filter fun t => kind?.all (t.kind == ·)

/-- The kind that a token or alias belongs to. -/
def kindOf? (s : LooseStore) (name : String) (kind? : Option String) : Option String :=
  (s.token? name kind?).map Token.kind

/-- The name of the true token behind a token or alias. -/
def trueToken? (s : LooseStore) (name : String) (kind? : Option String) : Option String :=
  (s.token? name kind?).map Token.trueName

/-- The description of a token or alias. -/
def description? (s : LooseStore) (name : String) (kind? : Option String) : Option String :=
  (s.token? name kind?).map Token.description

/-- The true token that an alias points at. -/
def target? (s : LooseStore) (name : String) (kind? : Option String) : Option String :=
  (s.token? name kind?).bind Token.target?

/-- The default of a kind. -/
def default? (s : LooseStore) (kind : String) : Option String := (s.kinds.get? kind).join

/-- Whether the store has tokens of a kind. -/
def hasKind (s : LooseStore) (kind : String) : Bool := s.kinds.contains kind

/-- Whether a name is a token or alias. -/
def hasToken (s : LooseStore) (name : String) (kind? : Option String) : Bool :=
  (s.token? name kind?).isSome

/-- Whether a name is a true token. -/
def hasTrueToken (s : LooseStore) (name : String) (kind? : Option String) : Bool :=
  (s.token? name kind?).any (!·.isAlias)

/-- Whether a name is an alias. -/
def hasAlias (s : LooseStore) (name : String) (kind? : Option String) : Bool :=
  (s.token? name kind?).any (·.isAlias)

/-! ## Listing -/

/-- The tokens and aliases in name order, of one kind if one is given. -/
def tokensOf (s : LooseStore) (kind? : Option String) : List Token :=
  s.tokens.values.filter fun t => kind?.all (t.kind == ·)

/-- The true tokens in name order. -/
def trueTokensOf (s : LooseStore) (kind? : Option String) : List Token :=
  (s.tokensOf kind?).filter (!·.isAlias)

/-- The aliases in name order. -/
def aliasesOf (s : LooseStore) (kind? : Option String) : List Token :=
  (s.tokensOf kind?).filter (·.isAlias)

/-- The names of the kinds in order. -/
def kindNames (s : LooseStore) : List String := s.kinds.keys

/-- The number of tokens and aliases. -/
def size (s : LooseStore) : Nat := s.tokens.size

/-- Whether the store has no tokens. -/
def isEmpty (s : LooseStore) : Bool := s.tokens.isEmpty

/-! ## Registration -/

/-- Refuses a kind or a name that is not valid, and a name that is in use. -/
def checkFresh (s : LooseStore) (name kind : String) : Except LoadError Unit :=
  if !isName kind then .error (.badKind s.locale kind)
  else if !isName name || name == defaultName then
    .error (.badToken s.locale kind name .badName)
  else match s.tokens.get? name with
    | some existing => .error (.duplicatedToken s.locale name kind existing.kind)
    | none => .ok ()

/-- Registers a true token. -/
def addToken (s : LooseStore) (name kind description : String) : Except LoadError LooseStore := do
  s.checkFresh name kind
  return { s with
    tokens := s.tokens.insert name (.plain name kind description)
    kinds := if s.hasKind kind then s.kinds else s.kinds.insert kind none }

/-- Registers an alias of a token, which must be of a kind if one is given.  The alias of an alias
points at the true token. -/
def addAlias (s : LooseStore) (name target : String) (kind? : Option String) :
    Except LoadError LooseStore :=
  match s.token? target kind? with
  | none => .error (.badAlias s.locale (kind?.getD "") name target .targetNotOfKind)
  | some found => do
    let base := (s.tokens.get? found.trueName).getD found
    s.checkFresh name base.kind
    return { s with tokens := s.tokens.insert name (.aliasOf name base) }

/-- Makes the true token behind a token or alias the default of its kind. -/
def setDefault (s : LooseStore) (kind name : String) : Except LoadError LooseStore :=
  match s.trueToken? name (some kind) with
  | none => .error (.badAlias s.locale kind defaultName name .defaultNotOfKind)
  | some base => .ok { s with kinds := s.kinds.insert kind (some base) }

/-- A registration. -/
inductive Registration where
  | addToken (name kind description : String)
  | addAlias (name target : String) (kind? : Option String)
  | setDefault (kind name : String)
deriving DecidableEq, Repr

/-- The store after a registration, or why it is refused. -/
def register (s : LooseStore) : Registration → Except LoadError LooseStore
  | .addToken name kind description => s.addToken name kind description
  | .addAlias name target kind? => s.addAlias name target kind?
  | .setDefault kind name => s.setDefault kind name

/-- The store after a registration that may be refused. -/
def attempt (s : LooseStore) (r : Registration) : LooseStore :=
  match s.register r with
  | .ok s' => s'
  | .error _ => s

/-- The store after some registrations, of which the refused ones change nothing. -/
def attemptAll (s : LooseStore) (rs : List Registration) : LooseStore := rs.foldl attempt s

end LooseStore

end Inflection
