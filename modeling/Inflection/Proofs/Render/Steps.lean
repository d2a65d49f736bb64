import Inflection.Render.Complex
import Inflection.Render.Single

/-!
# Rendering, one clause at a time

What rendering does with the first of some clauses, before it goes on with the others.

## Main statements

* `renderFrom_of_group`, `renderFrom_of_ne`: a clause of a loose or named pattern.
* `renderComplexFrom_of_length`, `renderComplexFrom_of_ne`: a clause of a complex pattern.
-/

namespace Inflection

/-- A clause has one group, or else it is not read in a loose or named pattern. -/
theorem Clause.groups_cases (clause : Clause) :
    (∃ group, clause.groups = [group]) ∨ ∀ group, clause.groups ≠ [group] := by
  by_cases h : ∃ group, clause.groups = [group]
  · exact .inl h
  · exact .inr (not_exists.1 h)

namespace Setting

variable {m : Type → Type} [Monad m] [MonadFault m] {c : Setting} {p : Pattern}

/-! ## Loose and named patterns -/

/-- The selection for a kind, unless one has been made before. -/
def selected (c : Setting) (p : Pattern) (scope : Scope) (kind : String) :
    Option Selection → m Selection
  | some selection => pure selection
  | none => c.select p scope kind

/-- Renders a pattern from a clause with some tokens on. -/
def renderChoice (c : Setting) (p : Pattern) (scope : Scope) (value : Value)
    (clauses : List Clause) (kind : String) (tokens : Tokens)
    (fallback? : Option (Value × String)) (selection : Selection) : m String :=
  match selection.token?.filter tokens.accepts with
  | some name => pure (value.render [scope.description? name])
  | none => c.renderFrom p scope clauses
      ⟨some kind, some selection, c.nextFallback selection tokens value fallback?⟩

/-- Renders a pattern from a clause on, given its kind and tokens. -/
def renderGroup (c : Setting) (p : Pattern) (scope : Scope) (value : Value)
    (clauses : List Clause) (s : Progress) : Option String × Option Tokens → m String
  | (some kind, some tokens) => do
    let selection ← c.selected p scope kind s.selection?
    c.renderChoice p scope value clauses kind tokens s.fallback? selection
  | (kind?, _) => c.renderFrom p scope clauses { s with kind? }

theorem renderFrom_of_group {scope : Scope} {clause : Clause} {group : Group}
    (h : clause.groups = [group]) (clauses : List Clause) (s : Progress) :
    (c.renderFrom p scope (clause :: clauses) s : m String) =
      c.resolveGroup p scope s.kind? group >>= c.renderGroup p scope clause.value clauses s := by
  rw [renderFrom]
  simp only [h]
  refine congrArg _ (funext ?_)
  intro r
  obtain ⟨kind?, tokens?⟩ := r
  cases kind? with
  | none => rfl
  | some kind =>
    cases tokens? with
    | none => rfl
    | some tokens =>
      obtain ⟨kind?, selection?, fallback?⟩ := s
      have hchoice (selection : Selection) :
          (match selection.token? with
            | some name =>
              if tokens.accepts name then pure (clause.value.render [scope.description? name])
              else c.renderFrom p scope clauses ⟨some kind, some selection,
                c.nextFallback selection tokens clause.value fallback?⟩
            | none => c.renderFrom p scope clauses ⟨some kind, some selection,
                c.nextFallback selection tokens clause.value fallback?⟩ : m String) =
            c.renderChoice p scope clause.value clauses kind tokens fallback? selection := by
        unfold renderChoice
        cases ht : selection.token? with
        | none => rfl
        | some name => by_cases ha : tokens.accepts name <;> simp [Option.filter, ha]
      cases selection? with
      | none => exact congrArg _ (funext hchoice)
      | some selection => exact congrArg _ (funext hchoice)

theorem renderFrom_of_ne {scope : Scope} {clause : Clause}
    (h : ∀ group, clause.groups ≠ [group]) (clauses : List Clause) (s : Progress) :
    (c.renderFrom p scope (clause :: clauses) s : m String) =
      note (.invalidToken p.source clause.tokens) >>= fun _ => c.renderFrom p scope clauses s := by
  rw [renderFrom]
  split
  · rename_i group hgroup
    exact absurd hgroup (h group)
  · rfl

/-! ## Complex patterns -/

/-- The selections for all kinds, unless they have been made before. -/
def selectedAll (c : Setting) (p : Pattern) (scopes : List Scope) (kinds : List String) :
    Option (List Selection) → m (List Selection)
  | some selections => pure selections
  | none => c.selectAll p scopes kinds

/-- Renders a complex pattern from a clause with some groups on. -/
def renderComplexChoice (c : Setting) (p : Pattern) (kinds : List String) (scopes : List Scope)
    (value : Value) (clauses : List Clause) (candidates : List (Value × List Tokens))
    (groups : List Tokens) (selections : List Selection) : m String :=
  match matchGroups false groups selections with
  | some found => pure (renderFound value scopes found)
  | none => c.renderComplexFrom p kinds scopes clauses (some selections)
      (if c.switches.excludedDefaults then candidates ++ [(value, groups)] else candidates)

/-- Renders a complex pattern from a clause on, given its groups. -/
def renderComplexGroups (c : Setting) (p : Pattern) (kinds : List String) (scopes : List Scope)
    (value : Value) (clauses : List Clause) (selections? : Option (List Selection))
    (candidates : List (Value × List Tokens)) : Option (List Tokens) → m String
  | none => c.renderComplexFrom p kinds scopes clauses selections? candidates
  | some groups => do
    let selections ← c.selectedAll p scopes kinds selections?
    c.renderComplexChoice p kinds scopes value clauses candidates groups selections

theorem renderComplexFrom_of_length {kinds : List String} {scopes : List Scope} {clause : Clause}
    (h : clause.groups.length = kinds.length) (clauses : List Clause)
    (selections? : Option (List Selection)) (candidates : List (Value × List Tokens)) :
    (c.renderComplexFrom p kinds scopes (clause :: clauses) selections? candidates : m String) =
      c.resolveGroups p scopes clause.groups >>=
        c.renderComplexGroups p kinds scopes clause.value clauses selections? candidates := by
  rw [renderComplexFrom, if_pos h]
  refine congrArg _ (funext ?_)
  intro groups?
  cases groups? with
  | none => rfl
  | some groups => cases selections? <;> rfl

theorem renderComplexFrom_of_ne {kinds : List String} {scopes : List Scope} {clause : Clause}
    (h : clause.groups.length ≠ kinds.length) (clauses : List Clause)
    (selections? : Option (List Selection)) (candidates : List (Value × List Tokens)) :
    (c.renderComplexFrom p kinds scopes (clause :: clauses) selections? candidates : m String) =
      note (.complexPatternMalformed p.source clause.tokens kinds.length clause.groups.length) >>=
        fun _ => c.renderComplexFrom p kinds scopes clauses selections? candidates := by
  rw [renderComplexFrom, if_neg h]

end Setting

end Inflection
