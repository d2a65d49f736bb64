import Inflection.Proofs.Render.Report
import Inflection.Proofs.Render.Steps
import Inflection.Render.Text

/-!
# Raising and suppressing faults

Rendering in `Report` keeps every fault and goes on; rendering in `Except Fault` ends at the first.
`Report.raise` turns a report into what the other would have given, and it commutes with everything
that rendering does, so the two renderings of a text are the same up to `Report.raise`.

## Main statements

* `Setting.raise_renderSegments`: rendering commutes with `Report.raise`.
* `interpolate_raises`: with `raises` in force a text fails with the first fault that is suppressed
  without it, and renders alike when none is.
-/

namespace Inflection

/-! ## Rendering -/

namespace Setting

/-- Two settings differ in `raises` at most. -/
structure Alike (c c' : Setting) : Prop where
  lexicon : c.lexicon = c'.lexicon
  requests : c.options.requests = c'.options.requests
  aliasedPatterns : c.switches.aliasedPatterns = c'.switches.aliasedPatterns
  unknownDefaults : c.switches.unknownDefaults = c'.switches.unknownDefaults
  excludedDefaults : c.switches.excludedDefaults = c'.switches.excludedDefaults

variable {c c' : Setting} {p : Pattern}

theorem Alike.refl (c : Setting) : c.Alike c := ⟨rfl, rfl, rfl, rfl, rfl⟩

theorem Alike.lookUp (h : c.Alike c') (scope : Scope) (name : String) :
    c.lookUp scope name = c'.lookUp scope name := by
  unfold Setting.lookUp
  rw [h.aliasedPatterns]

theorem Alike.requested? (h : c.Alike c') (kind : String) (strict : Bool) :
    c.options.requested? kind strict = c'.options.requested? kind strict := by
  unfold Options.requested? Options.get?
  rw [h.requests]

theorem Alike.nextFallback (h : c.Alike c') (s : Selection) (g : Tokens) (value : Value)
    (fallback? : Option (Value × String)) :
    c.nextFallback s g value fallback? = c'.nextFallback s g value fallback? := by
  unfold Setting.nextFallback
  rw [h.excludedDefaults]

theorem raise_resolveMember (h : c.Alike c') (scope : Scope) (member : Member) :
    (c.resolveMember p scope member : Report _).raise = c'.resolveMember p scope member := by
  unfold resolveMember
  rw [h.lookUp]
  cases c'.lookUp scope member.name with
  | none => rfl
  | some t => rfl

theorem raise_resolveMembers (h : c.Alike c') (scope : Scope) (members : List Member)
    (kind? : Option String) :
    (c.resolveMembers p scope members kind? : Report _).raise =
      c'.resolveMembers p scope members kind? := by
  induction members generalizing kind? with
  | nil => rfl
  | cons member members ih =>
    rw [resolveMembers, resolveMembers, Report.raise_bind, raise_resolveMember h]
    refine congrArg _ (funext ?_)
    intro token?
    cases token? with
    | none => exact ih kind?
    | some t =>
      dsimp only
      split
      · rw [Report.raise_bind, ih]
        rfl
      · rfl

theorem raise_resolveGroup (h : c.Alike c') (scope : Scope) (kind? : Option String)
    (group : Group) :
    (c.resolveGroup p scope kind? group : Report _).raise =
      c'.resolveGroup p scope kind? group := by
  unfold resolveGroup
  rw [Report.raise_bind, raise_resolveMembers h]
  rfl

theorem raise_select (h : c.Alike c') (scope : Scope) (kind : String) :
    (c.select p scope kind : Report _).raise = c'.select p scope kind := by
  unfold select
  rw [h.requested?, h.unknownDefaults]
  dsimp only
  split
  · split <;> rfl
  · split
    · rfl
    · split <;> rfl

theorem raise_selected (h : c.Alike c') (scope : Scope) (kind : String)
    (selection? : Option Selection) :
    (c.selected p scope kind selection? : Report _).raise =
      c'.selected p scope kind selection? := by
  cases selection? with
  | none => exact raise_select h scope kind
  | some selection => rfl

/-! ### Loose and named patterns -/

theorem raise_renderFrom (h : c.Alike c') (scope : Scope) (clauses : List Clause) (s : Progress) :
    (c.renderFrom p scope clauses s : Report _).raise = c'.renderFrom p scope clauses s := by
  induction clauses generalizing s with
  | nil => rfl
  | cons clause clauses ih =>
    rcases clause.groups_cases with ⟨group, hgroup⟩ | hne
    · rw [renderFrom_of_group hgroup, renderFrom_of_group hgroup, Report.raise_bind,
        raise_resolveGroup h]
      refine congrArg _ (funext ?_)
      intro r
      obtain ⟨_ | kind, _ | tokens⟩ := r
      case some.some =>
        unfold renderGroup
        rw [Report.raise_bind, raise_selected h]
        refine congrArg _ (funext ?_)
        intro selection
        unfold renderChoice
        rw [h.nextFallback]
        split
        · rfl
        · exact ih _
      all_goals exact ih _
    · rw [renderFrom_of_ne hne, renderFrom_of_ne hne, Report.raise_bind, Report.raise_note]
      exact congrArg _ (funext fun _ => ih s)

/-! ### Complex patterns -/

theorem raise_resolveGroups (h : c.Alike c') (scopes : List Scope) (groups : List Group) :
    (c.resolveGroups p scopes groups : Report _).raise = c'.resolveGroups p scopes groups := by
  induction scopes generalizing groups with
  | nil => rfl
  | cons scope scopes ih =>
    cases groups with
    | nil => rfl
    | cons group groups =>
      rw [resolveGroups, resolveGroups, Report.raise_bind, raise_resolveGroup h]
      refine congrArg _ (funext ?_)
      intro r
      obtain ⟨kind?, _ | tokens⟩ := r
      · rfl
      · dsimp only
        rw [Report.raise_bind, ih]
        rfl

theorem raise_selectAll (h : c.Alike c') (scopes : List Scope) (kinds : List String) :
    (c.selectAll p scopes kinds : Report _).raise = c'.selectAll p scopes kinds := by
  induction scopes generalizing kinds with
  | nil => rfl
  | cons scope scopes ih =>
    cases kinds with
    | nil => rfl
    | cons kind kinds =>
      rw [selectAll, selectAll, Report.raise_bind, raise_select h]
      refine congrArg _ (funext ?_)
      intro s
      rw [Report.raise_bind, ih]
      rfl

theorem raise_selectedAll (h : c.Alike c') (scopes : List Scope) (kinds : List String)
    (selections? : Option (List Selection)) :
    (c.selectedAll p scopes kinds selections? : Report _).raise =
      c'.selectedAll p scopes kinds selections? := by
  cases selections? with
  | none => exact raise_selectAll h scopes kinds
  | some selections => rfl

theorem raise_renderComplexFrom (h : c.Alike c') (kinds : List String) (scopes : List Scope)
    (clauses : List Clause) (selections? : Option (List Selection))
    (candidates : List (Value × List Tokens)) :
    (c.renderComplexFrom p kinds scopes clauses selections? candidates : Report _).raise =
      c'.renderComplexFrom p kinds scopes clauses selections? candidates := by
  induction clauses generalizing selections? candidates with
  | nil => rfl
  | cons clause clauses ih =>
    by_cases hlen : clause.groups.length = kinds.length
    · rw [renderComplexFrom_of_length hlen, renderComplexFrom_of_length hlen, Report.raise_bind,
        raise_resolveGroups h]
      refine congrArg _ (funext ?_)
      intro groups?
      cases groups? with
      | none => exact ih _ _
      | some groups =>
        unfold renderComplexGroups
        rw [Report.raise_bind, raise_selectedAll h]
        refine congrArg _ (funext ?_)
        intro selections
        unfold renderComplexChoice
        rw [h.excludedDefaults]
        split
        · rfl
        · exact ih _ _
    · rw [renderComplexFrom_of_ne hlen, renderComplexFrom_of_ne hlen, Report.raise_bind,
        Report.raise_note]
      exact congrArg _ (funext fun _ => ih selections? candidates)

theorem raise_renderComplex (h : c.Alike c') (kinds : List String) :
    (c.renderComplex p kinds : Report _).raise = c'.renderComplex p kinds := by
  unfold renderComplex
  rw [h.lexicon]
  dsimp only
  split
  · rfl
  · exact raise_renderComplexFrom h _ _ _ _ _

/-! ### Texts -/

theorem raise_renderPattern (h : c.Alike c') (p : Pattern) :
    (c.renderPattern p : Report _).raise = c'.renderPattern p := by
  unfold renderPattern
  rw [h.lexicon]
  split
  · exact raise_renderFrom h _ _ _
  · split
    · exact raise_renderFrom h _ _ _
    · rfl
  · exact raise_renderComplex h _
  · rfl

theorem raise_renderSegment (h : c.Alike c') (segment : Segment) :
    (c.renderSegment segment : Report _).raise = c'.renderSegment segment := by
  cases segment with
  | literal text => rfl
  | pattern p => exact raise_renderPattern h p

/-- Rendering commutes with raising the first fault. -/
theorem raise_renderSegments (h : c.Alike c') (segments : List Segment) :
    (c.renderSegments segments : Report _).raise = c'.renderSegments segments := by
  unfold renderSegments
  rw [Report.raise_map, Report.raise_mapM (raise_renderSegment h)]

end Setting

/-- The rendering of a text without `raises`, with the faults that it passes over. -/
def quietly (text : String) (d : Lexicon) (switches : Switches) (options : Options) :
    Report String :=
  if mark ∈ text.toList then
    (⟨d, options, switches.merged options.overrides⟩ : Setting).renderSegments (scan text)
  else pure text

/-- The faults that the rendering of a text without `raises` suppresses, in order. -/
def suppressed (text : String) (d : Lexicon) (switches : Switches) (options : Options) :
    List Fault :=
  (quietly text d switches options).faults

section

variable {text : String} {d : Lexicon} {switches switches' : Switches} {options options' : Options}

theorem interpolate_of_not_raises (h : (switches.merged options.overrides).raises = false) :
    interpolate text d switches options = .ok (quietly text d switches options).value := by
  unfold interpolate quietly
  split
  · dsimp only
    rw [if_neg (by simp [h])]
  · rfl

theorem interpolate_of_raises (hrequests : options'.requests = options.requests)
    (hswitches : switches'.merged options'.overrides =
      (switches.merged options.overrides).set .raises true) :
    interpolate text d switches' options' = (quietly text d switches options).raise := by
  unfold interpolate quietly
  split
  · have halike : Setting.Alike ⟨d, options, switches.merged options.overrides⟩
        ⟨d, options', switches'.merged options'.overrides⟩ := by
      rw [hswitches]
      exact ⟨rfl, hrequests.symm, rfl, rfl, rfl⟩
    have hraises : (switches'.merged options'.overrides).raises := by
      rw [hswitches]
      rfl
    dsimp only
    rw [if_pos hraises, Setting.raise_renderSegments halike]
  · rfl

/-- The outcome of a text is read off its report. -/
theorem interpolate_eq_quietly (text : String) (d : Lexicon) (switches : Switches)
    (options : Options) : interpolate text d switches options =
      if (switches.merged options.overrides).raises then (quietly text d switches options).raise
      else .ok (quietly text d switches options).value := by
  cases h : (switches.merged options.overrides).raises with
  | false => exact interpolate_of_not_raises h
  | true =>
    refine interpolate_of_raises rfl ?_
    generalize switches.merged options.overrides = inForce at h ⊢
    cases inForce
    cases h
    rfl

/-- A text is always rendered without `raises`.  With `raises` in force and all else equal it
renders alike if it renders, and it fails with the first fault that is suppressed otherwise. -/
theorem interpolate_raises (hrequests : options'.requests = options.requests)
    (hswitches : switches'.merged options'.overrides =
      (switches.merged options.overrides).set .raises true)
    (hquiet : (switches.merged options.overrides).raises = false) :
    (∃ s, interpolate text d switches options = .ok s) ∧
    (∀ s, interpolate text d switches' options' = .ok s →
      interpolate text d switches options = .ok s) ∧
    (∀ f, interpolate text d switches' options' = .error f ↔
      (suppressed text d switches options).head? = some f) := by
  rw [interpolate_of_not_raises hquiet, interpolate_of_raises hrequests hswitches]
  refine ⟨⟨_, rfl⟩, ?_, fun f => Report.raise_eq_error_iff⟩
  intro s h
  rw [(Report.raise_eq_ok_iff.1 h).2]

end

/-- Without data both clauses of a pattern are at fault, and the first fault is raised. -/
theorem interpolate_raises_first :
    suppressed "@{f:Lady|m:Sir}" (.empty "en") Switches.standard .empty =
        [.invalidToken "@{f:Lady|m:Sir}" "f", .invalidToken "@{f:Lady|m:Sir}" "m"] ∧
      interpolate "@{f:Lady|m:Sir}" (.empty "en") (Switches.standard.set .raises true) .empty =
        .error (.invalidToken "@{f:Lady|m:Sir}" "f") := by
  have hsuppressed : suppressed "@{f:Lady|m:Sir}" (.empty "en") Switches.standard .empty =
      [.invalidToken "@{f:Lady|m:Sir}" "f", .invalidToken "@{f:Lady|m:Sir}" "m"] := by
    decide +kernel
  refine ⟨hsuppressed,
    ((@interpolate_raises _ _ Switches.standard _ .empty _ rfl rfl rfl).2.2 _).2 ?_⟩
  rw [hsuppressed]
  rfl

end Inflection
