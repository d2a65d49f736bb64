import Inflection.Proofs.Lexicon.Load
import Inflection.Proofs.Lint.Members
import Inflection.Proofs.Render.Steps
import Inflection.Render.Text

/-!
# Lint covers the faults of rendering

A fault of a pattern is either warned of by lint or comes from the options of the call for a kind
that the pattern reads.  This is shown clause by clause: lint reads a clause with the kind that
rendering has when it comes to it.

## Main statements

* `Setting.foreseen_renderFrom`, `Setting.foreseen_renderComplexFrom`: the faults of rendering from
  some clause on are foreseen.
* `lint_covers_faults`: a text without warnings fails for want of an option alone.
-/

namespace Inflection

/-- The members that the clause is read for in a loose or named pattern. -/
def Clause.members (clause : Clause) : List Member :=
  match clause.groups with
  | [group] => group.members
  | _ => []

namespace Setting

open Lint

variable {c : Setting} {p : Pattern} {scope : Scope}

/-! ## Foreseen faults -/

/-- A fault of a pattern is warned of, or comes from the options for a kind that is read. -/
inductive Foreseen (c : Setting) (p : Pattern) (warnings : List Warning)
    (reads : List (Scope × String)) (f : Fault) : Prop
  | warned {w : Warning} (hw : w ∈ warnings) (hf : f.WarnedBy w)
  | option {scope : Scope} {kind : String} (hr : (scope, kind) ∈ reads)
      (hf : (c.select p scope kind : Except Fault Selection) = .error f)

theorem Foreseen.mono {warnings warnings' : List Warning} {reads reads' : List (Scope × String)}
    {f : Fault} (h : c.Foreseen p warnings reads f) (hw : warnings ⊆ warnings')
    (hr : reads ⊆ reads') : c.Foreseen p warnings' reads' f := by
  cases h with
  | warned hmem hf => exact .warned (hw hmem) hf
  | option hmem hf => exact .option (hr hmem) hf

/-! ## Loose and named patterns -/

/-- The kind that is read from some clauses on: one that is known, or else that of the first
token that they mention. -/
def readsFrom (scope : Scope) (kind? : Option String) (members : List Member) :
    List (Scope × String) :=
  ((kind?.or (members.findSome? fun m => scope.kindOf? m.name)).map (scope, ·)).toList

theorem mem_readsFrom {kind? : Option String} {members : List Member} {kind : String}
    (h : kind?.or (members.findSome? fun m => scope.kindOf? m.name) = some kind) :
    (scope, kind) ∈ readsFrom scope kind? members := by
  simp [readsFrom, h]

theorem surveyClauses_of_group {clause : Clause} {group : Group} (h : clause.groups = [group])
    (clauses : List Clause) (s : Survey) :
    surveyClauses p scope (clause :: clauses) s =
      ((surveyMembers p scope group.members s).1 ++
          (surveyClauses p scope clauses (surveyMembers p scope group.members s).2).1,
        (surveyClauses p scope clauses (surveyMembers p scope group.members s).2).2) := by
  rw [surveyClauses]
  simp only [h]

theorem surveyClauses_of_ne {clause : Clause} (h : ∀ group, clause.groups ≠ [group])
    (clauses : List Clause) (s : Survey) :
    surveyClauses p scope (clause :: clauses) s =
      (.unknownToken p.source clause.tokens :: (surveyClauses p scope clauses s).1,
        (surveyClauses p scope clauses s).2) := by
  rw [surveyClauses]
  rcases hg : clause.groups with _ | ⟨group, _ | ⟨_, _⟩⟩
  · rfl
  · exact absurd hg (h group)
  · rfl

theorem members_of_ne {clause : Clause} (h : ∀ group, clause.groups ≠ [group]) :
    clause.members = [] := by
  unfold Clause.members
  split
  · rename_i group hgroup
    exact absurd hgroup (h group)
  · rfl

theorem members_of_group {clause : Clause} {group : Group} (h : clause.groups = [group]) :
    clause.members = group.members := by
  unfold Clause.members
  simp only [h]

/-- The faults of rendering from some clause on are foreseen. -/
theorem foreseen_renderFrom (hs : scope.WellFormed) {f : Fault} (clauses : List Clause)
    (st : Progress) (s : Survey) (hk : s.kind? = st.kind?)
    (h : (c.renderFrom p scope clauses st : Except Fault String) = .error f) :
    c.Foreseen p (surveyClauses p scope clauses s).1
      (readsFrom scope st.kind? (clauses.flatMap Clause.members)) f := by
  induction clauses generalizing st s with
  | nil => cases h
  | cons clause clauses ih =>
    rcases clause.groups_cases with ⟨group, hgroup⟩ | hne
    · rw [renderFrom_of_group hgroup] at h
      rw [surveyClauses_of_group hgroup, List.flatMap_cons, members_of_group hgroup]
      dsimp only
      have hsurvey := resolveGroup_survey (c := c) (p := p) hs group s
      rw [hk] at hsurvey
      rcases bind_eq_error_iff.1 h with h | ⟨⟨kind?, tokens?⟩, hresolve, h⟩
      · obtain ⟨w, hw, hf⟩ := hsurvey.1 f h
        exact .warned (List.mem_append_left _ hw) hf
      · obtain ⟨hkind, hfirst⟩ := hsurvey.2 _ _ hresolve
        -- The rest is read with the kind that lint has inferred as well.
        have hrest {st' : Progress} (hst : st'.kind? = kind?)
            (h : (c.renderFrom p scope clauses st' : Except Fault String) = .error f) :
            c.Foreseen p ((surveyMembers p scope group.members s).1 ++
                (surveyClauses p scope clauses (surveyMembers p scope group.members s).2).1)
              (readsFrom scope st.kind? (group.members ++ clauses.flatMap Clause.members)) f := by
          refine (ih st' _ (hkind.trans hst.symm) h).mono (List.subset_append_right _ _) ?_
          rw [readsFrom, readsFrom, hst, hfirst, Option.or_assoc, List.findSome?_append]
          exact List.Subset.refl _
        cases kind? with
        | none => exact hrest rfl h
        | some kind =>
          cases tokens? with
          | none => exact hrest rfl h
          | some tokens =>
            rcases bind_eq_error_iff.1 h with h | ⟨selection, -, h⟩
            · cases hsel : st.selection? with
              | some selection =>
                rw [hsel] at h
                cases h
              | none =>
                rw [hsel] at h
                refine .option (mem_readsFrom ?_) h
                rw [List.findSome?_append, ← Option.or_assoc, ← hfirst]
                rfl
            · unfold renderChoice at h
              split at h
              · cases h
              · exact hrest rfl h
    · rw [renderFrom_of_ne hne] at h
      cases h
      rw [surveyClauses_of_ne hne]
      exact .warned List.mem_cons_self (.unknownToken ..)

theorem foreseen_renderSingle (hs : scope.WellFormed) {f : Fault}
    (h : (c.renderSingle p scope : Except Fault String) = .error f) :
    c.Foreseen p (checkSingle p scope)
      (readsFrom scope scope.kind? (p.clauses.flatMap Clause.members)) f :=
  (foreseen_renderFrom hs p.clauses ⟨scope.kind?, none, none⟩ ⟨scope.kind?, [], [], false⟩ rfl
    h).mono (List.subset_append_left _ _) (List.Subset.refl _)

/-! ## Complex patterns -/

theorem resolveGroups_strict {d : Lexicon} (hd : d.Built) {f : Fault} (kinds : List String)
    (groups : List Group)
    (h : (c.resolveGroups p (kinds.map (.strict d.strict)) groups : Except Fault _) = .error f) :
    ∃ w ∈ checkGroups p d.strict kinds groups, f.WarnedBy w := by
  induction kinds generalizing groups with
  | nil => cases h
  | cons kind kinds ih =>
    cases groups with
    | nil => cases h
    | cons group groups =>
      rw [List.map_cons, resolveGroups] at h
      unfold checkGroups
      rw [List.zip_cons_cons, List.flatMap_cons]
      rcases bind_eq_error_iff.1 h with h | ⟨⟨kind?, tokens?⟩, -, h⟩
      · rcases bind_eq_error_iff.1 h with h | ⟨a, -, h⟩
        · obtain ⟨m, hm, w, hw, hf⟩ := resolveMembers_strict
            (Scope.wellFormed_strict hd kind) rfl group.members (.inl rfl) h
          exact ⟨w, List.mem_append_left _ (List.mem_flatMap.2 ⟨m, hm, hw⟩), hf⟩
        · cases h
      · cases tokens? with
        | none => cases h
        | some tokens =>
          rcases bind_eq_error_iff.1 h with h | ⟨a, -, h⟩
          · obtain ⟨w, hw, hf⟩ := ih groups h
            exact ⟨w, List.mem_append_right _ hw, hf⟩
          · cases h

theorem selectAll_error {d : Lexicon} {f : Fault} (kinds : List String)
    (h : (c.selectAll p (kinds.map (.strict d.strict)) kinds : Except Fault _) = .error f) :
    ∃ kind ∈ kinds, (c.select p (.strict d.strict kind) kind : Except Fault _) = .error f := by
  induction kinds with
  | nil => cases h
  | cons kind kinds ih =>
    rw [List.map_cons, selectAll] at h
    rcases bind_eq_error_iff.1 h with h | ⟨s, -, h⟩
    · exact ⟨kind, List.mem_cons_self, h⟩
    · rcases bind_eq_error_iff.1 h with h | ⟨a, -, h⟩
      · obtain ⟨kind', hmem, hf⟩ := ih h
        exact ⟨kind', List.mem_cons_of_mem _ hmem, hf⟩
      · cases h

/-- The kinds that a complex pattern reads. -/
def readsComplex (d : Lexicon) (kinds : List String) : List (Scope × String) :=
  kinds.map fun kind => (.strict d.strict kind, kind)

theorem foreseen_renderComplexFrom {d : Lexicon} (hd : d.Built) {f : Fault} {kinds : List String}
    (clauses : List Clause) {selections? : Option (List Selection)}
    {candidates : List (Value × List Tokens)}
    (h : (c.renderComplexFrom p kinds (kinds.map (.strict d.strict)) clauses selections?
      candidates : Except Fault String) = .error f) :
    c.Foreseen p (clauses.flatMap (checkComplexClause p d.strict kinds))
      (readsComplex d kinds) f := by
  induction clauses generalizing selections? candidates with
  | nil => cases h
  | cons clause clauses ih =>
    rw [List.flatMap_cons]
    have hrest {selections? : Option (List Selection)} {candidates : List (Value × List Tokens)}
        (h : (c.renderComplexFrom p kinds (kinds.map (.strict d.strict)) clauses selections?
          candidates : Except Fault String) = .error f) :
        c.Foreseen p (checkComplexClause p d.strict kinds clause ++
            clauses.flatMap (checkComplexClause p d.strict kinds)) (readsComplex d kinds) f :=
      (ih h).mono (List.subset_append_right _ _) (List.Subset.refl _)
    by_cases hlen : clause.groups.length = kinds.length
    · rw [renderComplexFrom_of_length hlen] at h
      rcases bind_eq_error_iff.1 h with h | ⟨groups?, -, h⟩
      · obtain ⟨w, hw, hf⟩ := resolveGroups_strict hd kinds clause.groups h
        refine .warned (List.mem_append_left _ ?_) hf
        rwa [checkComplexClause, if_pos hlen]
      · cases groups? with
        | none => exact hrest h
        | some groups =>
          rcases bind_eq_error_iff.1 h with h | ⟨selections, -, h⟩
          · cases selections? with
            | some selections => cases h
            | none =>
              obtain ⟨kind, hkind, hf⟩ := selectAll_error kinds h
              exact .option (List.mem_map.2 ⟨kind, hkind, rfl⟩) hf
          · unfold renderComplexChoice at h
            split at h
            · cases h
            · exact hrest h
    · rw [renderComplexFrom_of_ne hlen] at h
      cases h
      refine .warned (List.mem_append_left _ ?_) (.complexArity ..)
      rw [checkComplexClause, if_neg hlen]
      exact List.mem_singleton_self _

end Setting

/-! ## Patterns and texts -/

/-- The kinds that a pattern reads, each with the scope that it is read in.  A loose pattern reads
the kind of the first token that it mentions. -/
def Pattern.reads (d : Lexicon) (p : Pattern) : List (Scope × String) :=
  match p.target with
  | .loose => Setting.readsFrom (.loose d.loose) none (p.clauses.flatMap Clause.members)
  | .named kind => [(.strict d.strict kind, kind)]
  | .complex kinds => Setting.readsComplex d kinds
  | .invalid _ => []

namespace Setting

open Lint

variable {c : Setting} {p : Pattern}

theorem foreseen_renderComplex (hd : c.lexicon.Built) {f : Fault} {kinds : List String}
    (h : (c.renderComplex p kinds : Except Fault String) = .error f) :
    c.Foreseen p (checkComplex p c.lexicon.strict kinds) (readsComplex c.lexicon kinds) f := by
  unfold renderComplex at h
  dsimp only at h
  unfold checkComplex
  cases hfind : kinds.find? (!c.lexicon.strict.hasKind ·) with
  | some unknown =>
    rw [hfind] at h
    cases h
    have hunknown := List.find?_some hfind
    have hmem : unknown ∈ kinds.filter (!c.lexicon.strict.hasKind ·) :=
      List.mem_filter.2 ⟨List.mem_of_find?_eq_some hfind, hunknown⟩
    cases hfilter : kinds.filter (!c.lexicon.strict.hasKind ·) with
    | nil =>
      rw [hfilter] at hmem
      cases hmem
    | cons kind rest =>
      rw [hfilter] at hmem
      exact .warned (List.mem_map_of_mem hmem) (.unknownKind ..)
  | none =>
    rw [hfind] at h
    have hfilter : kinds.filter (!c.lexicon.strict.hasKind ·) = [] :=
      List.filter_eq_nil_iff.2 (List.find?_eq_none.1 hfind)
    rw [hfilter]
    exact foreseen_renderComplexFrom hd p.clauses h

/-- The faults of rendering a pattern are foreseen. -/
theorem foreseen_renderPattern (hd : c.lexicon.Built) {f : Fault}
    (h : (c.renderPattern p : Except Fault String) = .error f) :
    c.Foreseen p (checkPattern c.lexicon p) (p.reads c.lexicon) f := by
  unfold renderPattern at h
  unfold checkPattern Pattern.reads
  cases htarget : p.target with
  | loose =>
    rw [htarget] at h
    exact foreseen_renderSingle (Scope.wellFormed_loose hd) h
  | named kind =>
    rw [htarget] at h
    dsimp only at h ⊢
    split at h
    case isTrue hkind =>
      rw [if_pos hkind]
      exact foreseen_renderSingle (Scope.wellFormed_strict hd kind) h
    case isFalse hkind =>
      rw [if_neg hkind]
      cases h
      exact .warned (List.mem_singleton_self _) (.unknownKind ..)
  | complex kinds =>
    rw [htarget] at h
    exact foreseen_renderComplex hd h
  | invalid text =>
    rw [htarget] at h
    cases h
    exact .warned (List.mem_singleton_self _) (.unknownKind ..)

/-- Selecting a token fails for want of an option alone, and never when the default stands in. -/
theorem select_eq_error {scope : Scope} {kind : String} {f : Fault}
    (h : (c.select p scope kind : Except Fault Selection) = .error f) :
    f.isOption ∧ (c.switches.unknownDefaults → scope.default? kind = none) := by
  unfold select at h
  dsimp only at h
  have hdefault : (if c.switches.unknownDefaults then scope.default? kind else none) = none →
      c.switches.unknownDefaults → scope.default? kind = none := by
    intro hnone hon
    rwa [if_pos hon] at hnone
  split at h
  · split at h
    · cases h
    · rename_i hnone
      cases h
      exact ⟨rfl, hdefault hnone⟩
  · split at h
    · cases h
    · split at h
      · cases h
      · rename_i hnone
        cases h
        exact ⟨rfl, hdefault hnone⟩

end Setting

/-- A text that cannot be rendered has a pattern whose fault is foreseen. -/
theorem foreseen_interpolate {d : Lexicon} (hd : d.Built) {text : String} {switches : Switches}
    {options : Options} {f : Fault} (h : interpolate text d switches options = .error f) :
    ∃ p ∈ patterns text, Setting.Foreseen ⟨d, options, switches.merged options.overrides⟩ p
      (Lint.checkPattern d p) (p.reads d) f := by
  unfold interpolate at h
  split at h
  case isTrue =>
    dsimp only at h
    split at h
    case isTrue =>
      unfold Setting.renderSegments at h
      obtain ⟨segment, hmem, hf⟩ := mapM_eq_error (map_eq_error_iff.1 h)
      cases segment with
      | literal text => cases hf
      | pattern p =>
        have hp : p ∈ patterns text := List.mem_filterMap.2 ⟨_, hmem, rfl⟩
        exact ⟨p, hp, Setting.foreseen_renderPattern hd hf⟩
    case isFalse => cases h
  case isFalse => cases h

/-- The fault that ends the rendering of a text is warned of by lint, unless it is one of the
options of the call.  When lint has nothing of the sort to say, a text is rendered whenever the
defaults may stand in for the options and there is one for each kind that is read. -/
theorem lint_covers_faults {d : Lexicon} (hd : d.Reachable) (text : String) (switches : Switches)
    (options : Options) :
    (∀ f, interpolate text d switches options = .error f → f.isOption = false →
      ∃ w ∈ lint text d, f.WarnedBy w) ∧
    ((∀ w ∈ lint text d, w.isStructural = false) →
      (∀ f, interpolate text d switches options = .error f → f.isOption) ∧
      ((switches.merged options.overrides).unknownDefaults →
        (∀ p ∈ patterns text, ∀ r ∈ p.reads d, (r.1.default? r.2).isSome) →
          ∃ s, interpolate text d switches options = .ok s)) := by
  have hwarned (f) (h : interpolate text d switches options = .error f)
      (hf : f.isOption = false) : ∃ w ∈ lint text d, f.WarnedBy w := by
    obtain ⟨p, hp, hforeseen⟩ := foreseen_interpolate hd.toBuilt h
    cases hforeseen with
    | warned hw hwf => exact ⟨_, List.mem_flatMap.2 ⟨p, hp, hw⟩, hwf⟩
    | option hr hselect =>
      have hoption := (Setting.select_eq_error hselect).1
      rw [hf] at hoption
      cases hoption
  refine ⟨hwarned, ?_⟩
  intro hclean
  have hoption (f) (h : interpolate text d switches options = .error f) : f.isOption := by
    cases hf : f.isOption with
    | true => rfl
    | false =>
      obtain ⟨w, hw, hwf⟩ := hwarned f h hf
      have hstructural := hwf.isStructural
      rw [hclean w hw] at hstructural
      cases hstructural
  refine ⟨hoption, ?_⟩
  intro hdefaults hreads
  cases h : interpolate text d switches options with
  | ok s => exact ⟨s, rfl⟩
  | error f =>
    obtain ⟨p, hp, hforeseen⟩ := foreseen_interpolate hd.toBuilt h
    cases hforeseen with
    | warned hw hwf =>
      have hstructural := hwf.isStructural
      rw [hclean _ (List.mem_flatMap.2 ⟨p, hp, hw⟩)] at hstructural
      cases hstructural
    | option hr hselect =>
      have hnone := (Setting.select_eq_error hselect).2 hdefaults
      have hsome := hreads p hp _ hr
      rw [hnone] at hsome
      cases hsome

/-- A pattern that lists the default of its kind is rendered. -/
theorem lint_covers_faults_default :
    let d : Lexicon := ⟨"en", (LooseStore.empty "en").attemptAll
      [.addToken "f" "gender" "female", .addToken "m" "gender" "male", .setDefault "gender" "f"],
      .empty "en"⟩
    d.Reachable ∧
      ∃ s, interpolate "Dear @{f:Lady|m:Sir}!" d ⟨true, false, true, false⟩ .empty = .ok s := by
  intro d
  have hd : d.Reachable := .built ⟨⟨"en", _, rfl⟩, ⟨"en", [], rfl⟩⟩
  have hclean : ∀ w ∈ lint "Dear @{f:Lady|m:Sir}!" d, w.isStructural = false := by
    decide +kernel
  have hreads : ∀ p ∈ patterns "Dear @{f:Lady|m:Sir}!", ∀ r ∈ p.reads d,
      (r.1.default? r.2).isSome := by
    decide +kernel
  exact ⟨hd, ((lint_covers_faults hd _ ⟨true, false, true, false⟩ .empty).2 hclean).2 rfl hreads⟩

end Inflection
