import Inflection.Render.Selection

/-!
# Loose and named patterns

A loose or named pattern reads one kind.  It renders to the value of its first clause that applies
to the selected token; failing that, to the value of its first clause that lists the default, if
`excludedDefaults` is on and a token is selected; failing that, to its free text.
-/

namespace Inflection

/-- What is known of a pattern after some of its clauses: its kind, the selection for that kind,
and the first clause that lists the default. -/
structure Progress where
  kind? : Option String
  selection? : Option Selection
  fallback? : Option (Value × String)
deriving DecidableEq, Repr

namespace Setting

variable {m : Type → Type} [Monad m] [MonadFault m]

/-- The fallback after a clause with some tokens. -/
def nextFallback (c : Setting) (s : Selection) (g : Tokens) (value : Value)
    (fallback? : Option (Value × String)) : Option (Value × String) :=
  if c.switches.excludedDefaults && fallback?.isNone then
    (s.default?.filter g.contains).map fun d => (value, d)
  else fallback?

/-- What a pattern renders to when none of its clauses applies. -/
def renderRest (p : Pattern) (scope : Scope) (s : Progress) : String :=
  match s.selection?, s.fallback? with
  | some ⟨some _, _⟩, some (value, name) => value.render [scope.description? name]
  | _, _ => p.freeText

/-- Renders a pattern from some clause on. -/
def renderFrom (c : Setting) (p : Pattern) (scope : Scope) : List Clause → Progress → m String
  | [], s => pure (renderRest p scope s)
  | clause :: clauses, s =>
    match clause.groups with
    | [group] => do
      let (kind?, tokens?) ← c.resolveGroup p scope s.kind? group
      match kind?, tokens? with
      | some kind, some tokens =>
        let selection ← match s.selection? with
          | some selection => pure selection
          | none => c.select p scope kind
        let fallback? := c.nextFallback selection tokens clause.value s.fallback?
        let s := ⟨kind?, some selection, fallback?⟩
        match selection.token? with
        | some name =>
          if tokens.accepts name then pure (clause.value.render [scope.description? name])
          else renderFrom c p scope clauses s
        | none => renderFrom c p scope clauses s
      | _, _ => renderFrom c p scope clauses { s with kind? }
    | _ => do
      note (.invalidToken p.source clause.tokens)
      renderFrom c p scope clauses s

/-- Renders a loose or named pattern. -/
def renderSingle (c : Setting) (p : Pattern) (scope : Scope) : m String :=
  c.renderFrom p scope p.clauses ⟨scope.kind?, none, none⟩

end Setting

end Inflection
