import Inflection.Lexicon.Basic

/-!
# Scopes

The scope of a pattern is where its tokens are looked up: among those of all loose kinds, or in
one strict kind.
-/

namespace Inflection

/-- A loose store, or one kind of a strict store. -/
inductive Scope where
  | loose (store : LooseStore)
  | strict (store : StrictStore) (kind : String)
deriving DecidableEq

namespace Scope

/-- Whether the scope is a strict kind. -/
def isStrict : Scope → Bool
  | loose _ => false
  | strict _ _ => true

/-- The kind of the scope, if it has just one. -/
def kind? : Scope → Option String
  | loose _ => none
  | strict _ kind => some kind

/-- A token or alias of the scope. -/
def token? : Scope → String → Option Token
  | loose s, name => s.token? name none
  | strict s kind, name => s.token? name kind

/-- The true token behind a token or alias of a kind. -/
def trueToken? (s : Scope) (name kind : String) : Option String :=
  ((s.token? name).filter fun t => t.kind == kind).map Token.trueName

/-- The default of a kind of the scope. -/
def default? : Scope → String → Option String
  | loose s, kind => s.default? kind
  | strict s kind, _ => s.default? kind

/-- The description of a token or alias of the scope. -/
def description? (s : Scope) (name : String) : Option String :=
  (s.token? name).map Token.description

end Scope

end Inflection
