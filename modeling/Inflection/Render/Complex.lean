import Inflection.Render.Selection

/-!
# Complex patterns

A complex pattern reads several strict kinds, and its clauses have one group for each.  It renders
to the value of its first clause all of whose groups apply to the selected tokens; failing that,
if `excludedDefaults` is on, to the first in which the default may stand in for a selected token;
failing that, to its free text.
-/

namespace Inflection

/-- The tokens that groups apply to, each for the selection of its kind. -/
def matchGroups (withDefaults : Bool) : List Tokens → List Selection → Option (List String)
  | g :: gs, s :: ss =>
    match s.token? with
    | none => none
    | some name =>
      let found? :=
        if g.accepts name then some name
        else if withDefaults then s.default?.filter g.contains
        else none
      match found? with
      | none => none
      | some found => (matchGroups withDefaults gs ss).map (found :: ·)
  | _, _ => some []

namespace Setting

variable {m : Type → Type} [Monad m] [MonadFault m]

/-- What a clause renders to, chosen for one token of each kind. -/
def renderFound (value : Value) (scopes : List Scope) (found : List String) : String :=
  value.render (List.zipWith Scope.description? scopes found)

/-- Resolves the groups of a clause up to the first without tokens. -/
def resolveGroups (c : Setting) (p : Pattern) :
    List Scope → List Group → m (Option (List Tokens))
  | scope :: scopes, group :: groups => do
    match ← c.resolveGroup p scope none group with
    | (_, none) => pure none
    | (_, some tokens) =>
      let rest ← resolveGroups c p scopes groups
      pure (rest.map (tokens :: ·))
  | _, _ => pure (some [])

/-- Selects a token for each kind. -/
def selectAll (c : Setting) (p : Pattern) : List Scope → List String → m (List Selection)
  | scope :: scopes, kind :: kinds => do
    let s ← c.select p scope kind
    let ss ← selectAll c p scopes kinds
    pure (s :: ss)
  | _, _ => pure []

/-- What a pattern renders to when no clause applies to the selected tokens themselves. -/
def renderCandidates (p : Pattern) (scopes : List Scope) (selections : List Selection) :
    List (Value × List Tokens) → String
  | [] => p.freeText
  | (value, groups) :: candidates =>
    match matchGroups true groups selections with
    | some found => renderFound value scopes found
    | none => renderCandidates p scopes selections candidates

/-- Renders a complex pattern from some clause on.  The selections are made at the first clause
whose groups resolve; the candidates are the clauses that did not apply. -/
def renderComplexFrom (c : Setting) (p : Pattern) (kinds : List String) (scopes : List Scope) :
    List Clause → Option (List Selection) → List (Value × List Tokens) → m String
  | [], selections?, candidates =>
    pure (renderCandidates p scopes (selections?.getD []) candidates)
  | clause :: clauses, selections?, candidates =>
    if clause.groups.length = kinds.length then do
      match ← c.resolveGroups p scopes clause.groups with
      | none => renderComplexFrom c p kinds scopes clauses selections? candidates
      | some groups =>
        let selections ← match selections? with
          | some selections => pure selections
          | none => c.selectAll p scopes kinds
        match matchGroups false groups selections with
        | some found => pure (renderFound clause.value scopes found)
        | none =>
          let candidates :=
            if c.switches.excludedDefaults then candidates ++ [(clause.value, groups)]
            else candidates
          renderComplexFrom c p kinds scopes clauses (some selections) candidates
    else do
      note (.complexPatternMalformed p.source clause.tokens kinds.length clause.groups.length)
      renderComplexFrom c p kinds scopes clauses selections? candidates

/-- Renders a complex pattern; an unknown kind is a fault. -/
def renderComplex (c : Setting) (p : Pattern) (kinds : List String) : m String :=
  let store := c.lexicon.strict
  match kinds.find? (!store.hasKind ·) with
  | some unknown => do
    note (.invalidKind p.source unknown)
    pure p.freeText
  | none => c.renderComplexFrom p kinds (kinds.map (.strict store)) p.clauses none []

end Setting

end Inflection
