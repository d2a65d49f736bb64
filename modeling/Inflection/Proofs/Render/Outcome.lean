import Inflection.Proofs.Render.Components
import Inflection.Proofs.Render.Segmentwise

/-!
# What clauses give

A pattern renders to what its clauses give, and to its free text only if they give nothing.
`Setting.outcome?` is what they give: by the target, the tokens that their groups mention and the
selections, whatever the source and the free text of the pattern are.

## Main statements

* `Setting.rendered_eq_getD`: a pattern renders to the outcome of its clauses, or to its free text.
* `interpolate_written_eq`: so does the written form of a well-formed pattern.
-/

namespace Inflection

namespace Setting

/-- What the clauses of a loose or named pattern give. -/
def singleOutcome? (c : Setting) (scope : Scope) (clauses : List Clause) : Option String :=
  let readings := c.readings scope clauses
  (scope.kind?.or (Reading.firstKind? readings)).bind fun kind =>
    c.chosen? scope kind (readings.filter (·.isLive kind))

/-- What the clauses of a complex pattern of known kinds give: the first whose groups match, or
else the first whose groups match with defaults if these may stand in. -/
def complexOutcome? (c : Setting) (kinds : List String) (clauses : List Clause) : Option String :=
  (clauses.findSome? (c.matched? false kinds)).or
    (if c.switches.excludedDefaults then clauses.findSome? (c.matched? true kinds) else none)

/-- What the clauses of a pattern give. -/
def outcome? (c : Setting) (clauses : List Clause) : Target → Option String
  | .loose => c.singleOutcome? (.loose c.lexicon.loose) clauses
  | .named kind =>
    if c.lexicon.strict.hasKind kind then c.singleOutcome? (.strict c.lexicon.strict kind) clauses
    else none
  | .complex kinds =>
    if ∀ kind ∈ kinds, c.lexicon.strict.hasKind kind then c.complexOutcome? kinds clauses else none
  | .invalid _ => none

variable {c : Setting}

theorem rendered_complex_of_unknown {p : Pattern} {kinds : List String}
    (htarget : p.target = .complex kinds)
    (hkinds : ¬∀ kind ∈ kinds, c.lexicon.strict.hasKind kind) : c.rendered p = p.freeText := by
  cases hfind : kinds.find? (!c.lexicon.strict.hasKind ·) with
  | none =>
    refine absurd ?_ hkinds
    intro kind hkind
    simpa using List.find?_eq_none.1 hfind kind hkind
  | some unknown =>
    rw [rendered, renderPattern, htarget]
    dsimp only
    rw [renderComplex, hfind]
    rfl

/-- A pattern renders to the outcome of its clauses, or else to its free text. -/
theorem rendered_eq_getD (hd : c.lexicon.Built) (p : Pattern) :
    c.rendered p = (c.outcome? p.clauses p.target).getD p.freeText := by
  cases htarget : p.target with
  | loose =>
    have hscope : p.scope? c.lexicon = some (.loose c.lexicon.loose) :=
      Pattern.scope?_eq_some_iff.2 (.inl ⟨htarget, rfl⟩)
    rw [rendered_of_scope? hscope, value_renderSingle]
    rfl
  | named kind =>
    rw [outcome?]
    split
    case isTrue hkind =>
      have hscope : p.scope? c.lexicon = some (.strict c.lexicon.strict kind) :=
        Pattern.scope?_eq_some_iff.2 (.inr ⟨kind, htarget, hkind, rfl⟩)
      rw [rendered_of_scope? hscope, value_renderSingle]
      rfl
    case isFalse hkind =>
      rw [rendered, renderPattern, htarget]
      dsimp only
      rw [if_neg hkind]
      rfl
  | complex kinds =>
    rw [outcome?]
    split
    case isTrue hkinds =>
      rw [rendered_complex hd htarget hkinds, byComponents, ← findSome?_matched? hd hkinds,
        ← findSome?_matched? hd hkinds]
      rfl
    case isFalse hkinds => exact rendered_complex_of_unknown htarget hkinds
  | invalid s =>
    rw [rendered, renderPattern, htarget]
    rfl

end Setting

/-! ## Patterns by themselves -/

section

variable {d : Lexicon} {switches : Switches} {options : Options} {p : Pattern}

/-- Without `raises` a pattern of a text renders to the outcome of its clauses, or else to its free
text. -/
theorem interpolate_source_eq (hd : d.Reachable)
    (hquiet : (switches.merged options.overrides).raises = false) {text : String}
    (hp : p ∈ patterns text) : interpolate p.source d switches options =
      .ok ((Setting.outcome? ⟨d, options, switches.merged options.overrides⟩ p.clauses
        p.target).getD p.freeText) := by
  rw [interpolate_source hp, Setting.answer_of_not_raises hquiet]
  exact congrArg Except.ok (Setting.rendered_eq_getD hd.toBuilt p)

/-- So does the written form of a well-formed pattern. -/
theorem interpolate_written_eq (hd : d.Reachable)
    (hquiet : (switches.merged options.overrides).raises = false) (hp : p.WellFormed) :
    interpolate p.written d switches options =
      .ok ((Setting.outcome? ⟨d, options, switches.merged options.overrides⟩ p.clauses
        p.target).getD p.freeText) := by
  -- What is scanned is the pattern with another source, on which the outcome does not depend.
  have h := interpolate_source_eq hd hquiet (mem_patterns_of_scan (Pattern.scan_written hp))
  exact h

end

end Inflection
