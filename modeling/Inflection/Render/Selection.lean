import Inflection.Options.Basic
import Inflection.Pattern.Basic
import Inflection.Render.Fault
import Inflection.Render.Scope

/-!
# Groups and selections

Before a clause is chosen its groups are resolved to true tokens, and the options of the call are
resolved to the token that each kind asks for.  `Tokens.accepts` says when a resolved group
applies to a token.
-/

namespace Inflection

/-- What a rendering depends on apart from the text: the data, the options of the call and the
switches in force. -/
structure Setting where
  lexicon : Lexicon
  options : Options
  switches : Switches
deriving DecidableEq

/-! ## Resolved groups -/

/-- The true tokens of a group, apart by negation. -/
structure Tokens where
  positives : List String
  negatives : List String
deriving DecidableEq, Repr

namespace Tokens

/-- No tokens. -/
def empty : Tokens := ⟨[], []⟩

/-- Puts a token before the others. -/
def cons (negated : Bool) (name : String) (g : Tokens) : Tokens :=
  if negated then { g with negatives := name :: g.negatives }
  else { g with positives := name :: g.positives }

/-- Whether there are no tokens. -/
def isEmpty (g : Tokens) : Bool := g.positives.isEmpty && g.negatives.isEmpty

/-- Whether a token is among those not negated. -/
def contains (g : Tokens) (name : String) : Bool := g.positives.contains name

/-- Whether the group applies to a token: without negated tokens it has to be listed, one negated
token excludes itself alone, and two or more exclude nothing. -/
def accepts (g : Tokens) (name : String) : Bool :=
  match g.negatives with
  | [] => g.contains name
  | [negated] => negated != name
  | _ => true

end Tokens

/-! ## Selections -/

/-- The token that the options select for a kind, if any, and the default of the kind. -/
structure Selection where
  token? : Option String
  default? : Option String
deriving DecidableEq, Repr

/-- What a chosen clause renders to, given the descriptions of the tokens it was chosen for. -/
def Value.render (descriptions : List (Option String)) : Value → String
  | text s => s
  | loud => " ".intercalate (descriptions.filterMap id)

namespace Setting

variable {m : Type → Type} [Monad m] [MonadFault m]

/-- The true token that a member mentions; an alias counts only if patterns may mention one. -/
def lookUp (c : Setting) (scope : Scope) (name : String) : Option Token :=
  match scope.token? name with
  | none => none
  | some t =>
    match t.target? with
    | none => some t
    | some target => if c.switches.aliasedPatterns then scope.token? target else none

/-- Resolves a member, and notes a fault if it mentions no token. -/
def resolveMember (c : Setting) (p : Pattern) (scope : Scope) (member : Member) :
    m (Option Token) :=
  match c.lookUp scope member.name with
  | some t => pure (some t)
  | none => do
    note (.invalidToken p.source member.text)
    pure none

/-- Resolves members one after the other.  The first token fixes the kind if none is given yet; a
token of another kind is a fault that leaves the clause without tokens. -/
def resolveMembers (c : Setting) (p : Pattern) (scope : Scope) :
    List Member → Option String → m (Option String × Option Tokens)
  | [], kind? => pure (kind?, some .empty)
  | member :: members, kind? => do
    match ← c.resolveMember p scope member with
    | none => resolveMembers c p scope members kind?
    | some t =>
      let kind := kind?.getD t.kind
      if t.kind = kind then do
        let (kind?, tokens?) ← resolveMembers c p scope members (some kind)
        pure (kind?, tokens?.map (·.cons member.negated t.name))
      else do
        note (.misplacedToken p.source member.name t.kind kind)
        pure (some kind, none)

/-- Resolves a group; a clause without tokens is passed over. -/
def resolveGroup (c : Setting) (p : Pattern) (scope : Scope) (kind? : Option String)
    (group : Group) : m (Option String × Option Tokens) := do
  let (kind?, tokens?) ← c.resolveMembers p scope group.members kind?
  pure (kind?, tokens?.filter (!·.isEmpty))

/-- Selects a token of a kind by the options.  A missing or unknown option is a fault, unless the
default may stand in for it. -/
def select (c : Setting) (p : Pattern) (scope : Scope) (kind : String) : m Selection :=
  let default? := scope.default? kind
  let fallback? := if c.switches.unknownDefaults then default? else none
  match c.options.requested? kind scope.isStrict with
  | none =>
    match fallback? with
    | some fallback => pure ⟨some fallback, default?⟩
    | none => do
      note (.optionNotFound p.source kind)
      pure ⟨none, default?⟩
  | some requested =>
    match scope.trueToken? requested kind with
    | some t => pure ⟨some t, default?⟩
    | none =>
      match fallback? with
      | some fallback => pure ⟨some fallback, default?⟩
      | none => do
        note (.optionIncorrect p.source kind requested)
        pure ⟨none, default?⟩

end Setting

end Inflection
