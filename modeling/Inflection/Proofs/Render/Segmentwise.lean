import Inflection.Lint.Check
import Inflection.Proofs.Except
import Inflection.Proofs.Pattern.Protect
import Inflection.Proofs.Render.Quiet

/-!
# Texts, one segment at a time

With `raises` in force or not, a text is rendered segment by segment, and a pattern renders by
itself to what it renders to in a text.  A text that holds no pattern is therefore its own
rendering but for its escapes, and a protected text renders to the text before.

## Main statements

* `interpolate_eq_mapM_answer`: a text renders to what its segments answer, or fails as the first
  of them that fails.
* `interpolate_segmentwise`: each pattern of a text may be rendered and checked by itself.
* `interpolate_protect`: whatever the data and the options, a protected text renders to the text.
-/

namespace Inflection

namespace Setting

/-- What a segment renders to, or its first fault if faults are raised. -/
def answer (c : Setting) : Segment → Except Fault String
  | .literal s => .ok s
  | .pattern p => if c.switches.raises then c.renderPattern p else .ok (c.rendered p)

variable {c : Setting}

theorem answer_of_raises (h : c.switches.raises) (segment : Segment) :
    c.answer segment = c.renderSegment segment := by
  cases segment with
  | literal s => rfl
  | pattern p => exact if_pos h

theorem answer_of_not_raises (h : c.switches.raises = false) (segment : Segment) :
    c.answer segment = pure (c.shown segment) := by
  cases segment with
  | literal s => rfl
  | pattern p => exact if_neg (by simp [h])

/-- A pattern that cannot fail answers what it renders to. -/
theorem answer_of_not_error (h : ∀ f, (c.renderPattern p : Except Fault String) ≠ .error f) :
    c.answer (.pattern p) = .ok (c.rendered p) := by
  unfold answer
  dsimp only
  split
  case isTrue =>
    cases hr : (c.renderPattern p : Except Fault String) with
    | error f => exact absurd hr (h f)
    | ok s =>
      rw [← raise_renderPattern (Alike.refl c)] at hr
      rw [rendered, (Report.raise_eq_ok_iff.1 hr).2]
  case isFalse => rfl

end Setting

section

variable {text : String} {d : Lexicon} {switches : Switches} {options : Options}

/-- A text renders to what its segments answer, one after the other. -/
theorem interpolate_eq_mapM_answer :
    interpolate text d switches options = String.join <$>
      (scan text).mapM (Setting.answer ⟨d, options, switches.merged options.overrides⟩) := by
  cases h : (switches.merged options.overrides).raises with
  | false =>
    rw [interpolate_eq_join h, funext (Setting.answer_of_not_raises h), List.mapM_pure]
    rfl
  | true =>
    rw [funext (Setting.answer_of_raises h), interpolate]
    split
    case isTrue => exact if_pos h
    case isFalse hmark =>
      rcases scan_of_notMem_mark hmark with ⟨rfl, hscan⟩ | hscan
      · rw [hscan]
        rfl
      · rw [hscan]
        exact congrArg Except.ok (join_singleton text).symm

/-- A text without patterns renders to its literals. -/
theorem interpolate_of_patterns_eq_nil (h : patterns text = []) :
    interpolate text d switches options =
      .ok (String.ofList ((scan text).flatMap Segment.source)) := by
  have hliteral : ∀ segment ∈ scan text,
      Setting.answer ⟨d, options, switches.merged options.overrides⟩ segment =
        pure (String.ofList segment.source) := by
    intro segment hmem
    cases segment with
    | literal s => rw [Segment.source, String.ofList_toList]; rfl
    | pattern p =>
      have hp : p ∈ patterns text := List.mem_filterMap.2 ⟨_, hmem, rfl⟩
      rw [h] at hp
      cases hp
  rw [interpolate_eq_mapM_answer, mapM_congr hliteral, List.mapM_pure]
  refine congrArg Except.ok (String.toList_inj.1 ?_)
  rw [String.toList_join, String.toList_ofList, List.flatMap_map]
  simp only [String.toList_ofList]

end

/-! ## Patterns by themselves -/

/-- What a segment of a text renders to by itself. -/
def Segment.interpolate (d : Lexicon) (switches : Switches) (options : Options) :
    Segment → Except Fault String
  | literal s => .ok s
  | pattern p => Inflection.interpolate p.source d switches options

/-- A pattern of a text answers what its source renders to. -/
theorem Setting.answer_eq_interpolate {text : String} (d : Lexicon) (switches : Switches)
    (options : Options) {segment : Segment} (h : segment ∈ scan text) :
    Setting.answer ⟨d, options, switches.merged options.overrides⟩ segment =
      segment.interpolate d switches options := by
  cases segment with
  | literal s => rfl
  | pattern p =>
    have hp : p ∈ patterns text := List.mem_filterMap.2 ⟨_, h, rfl⟩
    rw [Segment.interpolate, interpolate_eq_mapM_answer, scan_source hp, List.mapM_cons,
      List.mapM_nil]
    cases Setting.answer _ (.pattern p) with
    | error fault => rfl
    | ok s => exact congrArg Except.ok (join_singleton s).symm

theorem interpolate_source {text : String} {p : Pattern} (hp : p ∈ patterns text) (d : Lexicon)
    (switches : Switches) (options : Options) : interpolate p.source d switches options =
      Setting.answer ⟨d, options, switches.merged options.overrides⟩ (.pattern p) := by
  obtain ⟨segment, hsegment, hpattern⟩ := List.mem_filterMap.1 hp
  cases segment with
  | literal s => cases hpattern
  | pattern q =>
    cases hpattern
    exact (Setting.answer_eq_interpolate d switches options hsegment).symm

theorem lint_source {text : String} {p : Pattern} (hp : p ∈ patterns text) (d : Lexicon) :
    lint p.source d = Lint.checkPattern d p := by
  have hpatterns : patterns p.source = [p] := by
    rw [patterns, scan_source hp]
    rfl
  rw [lint, hpatterns, List.flatMap_singleton]

theorem interpolate_eq_mapM (text : String) (d : Lexicon) (switches : Switches)
    (options : Options) : interpolate text d switches options =
      String.join <$> (scan text).mapM (Segment.interpolate d switches options) := by
  rw [interpolate_eq_mapM_answer]
  exact congrArg _ (mapM_congr fun _ h => Setting.answer_eq_interpolate d switches options h)

/-- Each pattern of a text is the one segment of its source.  So a text renders to its segments
one after the other, each rendered by itself; it fails with the fault of the first pattern that
fails by itself; and the warnings about it are those about its patterns. -/
theorem interpolate_segmentwise (text : String) (d : Lexicon) (switches : Switches)
    (options : Options) :
    (∀ p ∈ patterns text, scan p.source = [.pattern p]) ∧
    interpolate text d switches options =
      String.join <$> (scan text).mapM (Segment.interpolate d switches options) ∧
    (∀ f, interpolate text d switches options = .error f ↔
      ∃ before p after, scan text = before ++ .pattern p :: after ∧
        (∀ q, .pattern q ∈ before → ∃ s, interpolate q.source d switches options = .ok s) ∧
        interpolate p.source d switches options = .error f) ∧
    lint text d = (patterns text).flatMap fun p => lint p.source d := by
  refine ⟨fun p hp => scan_source hp, interpolate_eq_mapM text d switches options, ?_, ?_⟩
  · intro f
    rw [interpolate_eq_mapM, map_eq_error_iff, mapM_eq_error_iff]
    refine ⟨?_, ?_⟩
    · rintro ⟨before, segment, after, hscan, hbefore, hf⟩
      cases segment with
      | literal s => cases hf
      | pattern p => exact ⟨before, p, after, hscan, fun q hq => hbefore _ hq, hf⟩
    · rintro ⟨before, p, after, hscan, hbefore, hf⟩
      refine ⟨before, .pattern p, after, hscan, ?_, hf⟩
      intro segment hmem
      cases segment with
      | literal s => exact ⟨s, rfl⟩
      | pattern q => exact hbefore q hmem
  · exact List.flatMap_congr fun p hp => (lint_source hp d).symm

/-! ## Protected texts -/

/-- Every text can be protected: whatever the data, the switches and the options, what is rendered
is the text itself, and there is nothing to warn of. -/
theorem interpolate_protect (text : String) (d : Lexicon) (switches : Switches)
    (options : Options) :
    interpolate (protect text) d switches options = .ok text ∧ lint (protect text) d = [] := by
  refine ⟨?_, ?_⟩
  · rw [interpolate_of_patterns_eq_nil (patterns_protect text), flatMap_source_scan_protect,
      String.ofList_toList]
  · rw [lint, patterns_protect]
    rfl

end Inflection
