import Inflection.Proofs.Lint.Plain
import Inflection.Proofs.Pattern.RoundTrip
import Inflection.Proofs.Render.Segmentwise

/-!
# Patterns that render to nothing

The warning that a pattern may render to nothing is kept: without options the pattern does.  The
other way round, a pattern without warnings, free text and negated members always renders to the
value of a clause once the defaults may stand in, and never fails.

## Main statements

* `Setting.choice_of_mayRenderEmpty`: a pattern that is warned of renders to nothing.
* `Setting.plain_of_clean`: the clauses of a pattern without warnings and negated members are plain.
* `Setting.exists_default_of_clean`: just one of these clauses lists the default, unless the pattern
  has free text.
* `lint_foretells_emptiness`: both directions, for every pattern of a text.
-/

namespace Inflection

namespace Setting

variable {c : Setting} {scope : Scope} {p : Pattern} {kind : String}

/-! ## Patterns that are warned of -/

/-- What a clause that counts for a kind mentions comes from members of that kind. -/
theorem exists_of_mem_live {r : Reading} (hs : scope.WellFormed)
    (h : r ∈ (c.readings scope p.clauses).filter (·.isLive kind)) {m : Mention}
    (hm : m ∈ r.mentions) :
    ∃ member ∈ p.members, member.negated = m.negated ∧
      scope.trueToken? member.name kind = some m.token.name := by
  obtain ⟨hr, hlive⟩ := List.mem_filter.1 h
  obtain ⟨clause, hclause, rfl⟩ := exists_of_mem_readings hr
  obtain ⟨member, hmember, hneg, hmentioned⟩ := mem_mentions_iff.1 hm
  have hall := List.all_eq_true.1 (Bool.and_eq_true_iff.1 hlive).2 m hm
  have hkind : m.token.kind = kind := beq_iff_eq.1 hall
  exact ⟨member, List.mem_flatMap.2 ⟨clause, hclause, hmember⟩, hneg,
    hkind ▸ trueToken?_of_mentioned? hs hmentioned⟩

/-- Without options a pattern that is warned of as possibly empty renders to nothing. -/
theorem choice_of_mayRenderEmpty (hs : scope.WellFormed) (haliased : c.switches.aliasedPatterns)
    (hexcluded : c.switches.excludedDefaults = false)
    (hoptions : c.options.requested? kind scope.isStrict = none) {source : String}
    (h : .mayRenderEmpty source kind ∈ Lint.checkSingle p scope) : c.choice scope p = "" := by
  obtain ⟨-, hkind, hfree, hneg, hdefault⟩ := (Lint.mayRenderEmpty_mem_checkSingle_iff hs).1 h
  have hfirst : scope.kind?.or (Reading.firstKind? (c.readings scope p.clauses)) = some kind := by
    rw [firstKind?_readings p.clauses fun m _ => kind_mentioned?_of_aliased hs haliased m.name]
    exact hkind
  have hrejects {option : String} (hoption : scope.default? kind = some option) :
      ∀ r ∈ (c.readings scope p.clauses).filter (·.isLive kind), ¬r.accepts option := by
    intro r hr
    have hpositive : ∀ m ∈ r.mentions, m.negated = false := by
      intro m hm
      obtain ⟨member, hmember, hnegated, htrue⟩ := exists_of_mem_live hs hr hm
      have hnot := hneg member hmember
      rw [Member.negates, Scope.kindOf?_of_trueToken? htrue, beq_self_eq_true, Bool.and_true,
        hnegated, Bool.not_eq_true] at hnot
      exact hnot
    rw [accepts_eq_lists hpositive, lists_reading_iff]
    rintro ⟨m, hm, hm', rfl⟩
    obtain ⟨member, hmember, hnegated, htrue⟩ := exists_of_mem_live hs hr hm
    refine hdefault _ hoption member hmember ?_
    rw [Member.lists, hnegated, hm', htrue]
    exact beq_self_eq_true _
  have hchosen : c.chosen? scope kind
      ((c.readings scope p.clauses).filter (·.isLive kind)) = none := by
    have hnone : c.excluded? scope kind
        ((c.readings scope p.clauses).filter (·.isLive kind)) = none := by
      rw [excluded?, hexcluded]
      rfl
    unfold chosen?
    cases hoption : c.option? scope kind with
    | none => rfl
    | some option =>
      have hstands : scope.default? kind = some option := by
        rw [option?, hoptions, Option.bind_none, Option.none_or] at hoption
        split at hoption
        · exact hoption
        · cases hoption
      rw [Option.bind_some, hnone, Option.or_none, accepted?,
        List.find?_eq_none.2 (hrejects hstands), Option.map_none]
  unfold choice
  dsimp only
  rw [hfirst, Option.bind_some, hchosen, Option.getD_none, Pattern.freeText, hfree]
  rfl

/-! ## Patterns without warnings -/

theorem members_ne_nil (hwell : p.WellFormed) {clause : Clause} (hclause : clause ∈ p.clauses)
    (hgroup : ∃ group, clause.groups = [group]) : clause.members ≠ [] := by
  obtain ⟨group, hgroup⟩ := hgroup
  have hw := hwell.clauses clause hclause
  cases clause with
  | bare text => cases hgroup
  | choice groups value =>
    obtain rfl : groups = [group] := hgroup
    exact (hw.2.1 group List.mem_cons_self).nonempty

/-- Without warnings a pattern that has a clause has a kind. -/
theorem exists_kind_of_clean (hs : scope.WellFormed) (hwell : p.WellFormed)
    (h : (Lint.surveyed p scope).1 = []) (hclauses : p.clauses ≠ []) :
    ∃ kind, p.kind? scope = some kind := by
  obtain ⟨clause, hclause⟩ := List.exists_mem_of_ne_nil _ hclauses
  obtain ⟨hgroup, hplain⟩ := Lint.plain_of_surveyClauses h clause hclause
  obtain ⟨m, hm⟩ := List.exists_mem_of_ne_nil _ (members_ne_nil hwell hclause hgroup)
  obtain ⟨kind, -, hkind⟩ := hplain m hm
  exact ⟨kind, (Lint.sums_surveyed hs).kind?.symm.trans hkind⟩

/-- The clauses of a pattern without warnings and negated members are plain. -/
theorem plain_of_clean (hs : scope.WellFormed) (hwell : p.WellFormed)
    (h : (Lint.surveyed p scope).1 = []) (hkind : p.kind? scope = some kind)
    (hpositive : ∀ clause ∈ p.clauses, ∀ g ∈ clause.groups, ∀ m ∈ g.members, m.negated = false) :
    ∀ clause ∈ p.clauses, clause.Plain scope kind := by
  intro clause hclause
  obtain ⟨⟨group, hgroup⟩, hplain⟩ := Lint.plain_of_surveyClauses h clause hclause
  refine ⟨⟨group, hgroup⟩, members_ne_nil hwell hclause ⟨group, hgroup⟩, ?_, ?_⟩
  · intro m hm
    obtain ⟨kind', htrue, hkind'⟩ := hplain m hm
    have hsurvey := (Lint.sums_surveyed (p := p) hs).kind?
    obtain rfl : kind' = kind := Option.some.inj (hkind'.symm.trans (hsurvey.trans hkind))
    exact htrue
  · intro m hm
    rw [members_of_group hgroup] at hm
    exact hpositive clause hclause group (hgroup ▸ List.mem_cons_self) m hm

theorem length_filter_lists_le (clauses : List Clause) (name : String) :
    (clauses.filter (Clause.lists scope kind name)).length ≤
      (clauses.flatMap Clause.members).countP (Member.lists scope kind name) := by
  induction clauses with
  | nil => exact Nat.le_refl 0
  | cons clause clauses ih =>
    rw [List.flatMap_cons, List.countP_append]
    by_cases hlists : clause.lists scope kind name
    · have hpos : 0 < clause.members.countP (Member.lists scope kind name) :=
        List.countP_pos_iff.2 (List.any_eq_true.1 hlists)
      rw [List.filter_cons_of_pos hlists, List.length_cons]
      omega
    · rw [List.filter_cons_of_neg hlists]
      omega

/-- In a pattern without warnings, free text and negated members just one clause lists the
default. -/
theorem exists_default_of_clean (hs : scope.WellFormed) (h : Lint.checkSingle p scope = [])
    (hkind : p.kind? scope = some kind) (hfree : p.freeText? = none)
    (hplain : ∀ clause ∈ p.clauses, clause.Plain scope kind) :
    ∃ name clause, scope.default? kind = some name ∧
      p.clauses.filter (Clause.lists scope kind name) = [clause] := by
  have hcovered : ∃ name, scope.default? kind = some name ∧
      ∃ m ∈ p.members, m.lists scope kind name := by
    by_contra hnot
    have hwarned : .mayRenderEmpty p.source kind ∈ Lint.checkSingle p scope := by
      refine (Lint.mayRenderEmpty_mem_checkSingle_iff hs).2 ⟨rfl, hkind, hfree, ?_, ?_⟩
      · intro m hm
        obtain ⟨clause, hclause, hm⟩ := List.mem_flatMap.1 hm
        rw [Member.negates, (hplain clause hclause).positive m hm]
        exact Bool.false_ne_true
      · intro name hname m hm hlists
        exact hnot ⟨name, hname, m, hm, hlists⟩
    rw [h] at hwarned
    cases hwarned
  obtain ⟨name, hname, m, hm, hlists⟩ := hcovered
  obtain ⟨clause, hclause, hm⟩ := List.mem_flatMap.1 hm
  have hlists' : clause.lists scope kind name := List.any_eq_true.2 ⟨m, hm, hlists⟩
  have honce : p.members.countP (Member.lists scope kind name) ≤ 1 := by
    refine Lint.countP_lists_le_one hs hkind ?_ name
    intro name' hwarned
    rw [h] at hwarned
    cases hwarned
  have hle : (p.clauses.filter (Clause.lists scope kind name)).length ≤
      p.members.countP (Member.lists scope kind name) := length_filter_lists_le p.clauses name
  have hpos := List.length_pos_of_mem (List.mem_filter.2 ⟨hclause, hlists'⟩)
  obtain ⟨clause', hclause'⟩ := List.length_eq_one_iff.1
    (show (p.clauses.filter (Clause.lists scope kind name)).length = 1 by omega)
  exact ⟨name, clause', hname, hclause'⟩

/-! ## No faults -/

/-- A pattern without warnings never fails if its kind has a default that may stand in. -/
theorem answer_of_clean (hd : c.lexicon.Built) (hscope : p.scope? c.lexicon = some scope)
    (h : Lint.checkSingle p scope = []) (hkind : p.kind? scope = some kind)
    (hdefault : scope.default? kind ≠ none) (hunknown : c.switches.unknownDefaults) :
    c.answer (.pattern p) = .ok (c.choice scope p) := by
  have hok : ∀ f, (c.renderPattern p : Except Fault String) ≠ .error f := by
    intro f hf
    have hforeseen := foreseen_renderPattern hd hf
    rw [checkPattern_of_scope? hscope, h, reads_of_kind? hscope hkind] at hforeseen
    cases hforeseen with
    | warned hw _ => cases hw
    | option hr hselect =>
      cases List.mem_singleton.1 hr
      exact hdefault ((select_eq_error hselect).2 hunknown)
  rw [answer_of_not_error hok, rendered_of_scope? hscope, value_renderSingle]

/-! ## Options that the default stands in for -/

theorem option?_of_invalid (hunknown : c.switches.unknownDefaults)
    (h : ∀ requested, c.options.requested? kind scope.isStrict = some requested →
      scope.trueToken? requested kind = none) : c.option? scope kind = scope.default? kind := by
  have hnone : (c.options.requested? kind scope.isStrict).bind (scope.trueToken? · kind) = none :=
    Option.bind_eq_none_iff.2 h
  rw [option?, hnone, Option.none_or, if_pos hunknown]

theorem exists_option? (hunknown : c.switches.unknownDefaults) {name : String}
    (h : scope.default? kind = some name) : ∃ option, c.option? scope kind = some option := by
  rw [option?, if_pos hunknown, h]
  cases (c.options.requested? kind scope.isStrict).bind (scope.trueToken? · kind) with
  | none => exact ⟨name, rfl⟩
  | some option => exact ⟨option, rfl⟩

end Setting

theorem Options.requested?_empty (kind : String) (strict : Bool) :
    Options.empty.requested? kind strict = none := by
  cases strict <;> rfl

/-! ## Texts -/

section

variable {text : String} {d : Lexicon} {p : Pattern}

/-- What the warning of a possibly empty rendering says of a loose pattern or a named one of a known
kind.  A pattern that is warned of renders to nothing if there are no options and patterns may
mention aliases.  A pattern without any warning, free text and negated members never fails once
defaults stand in for unknown options: for options that give no token of its kind it renders to the
value of the one clause that lists the default, and if defaults stand in for excluded tokens as
well, to the value of a clause in any case. -/
theorem lint_foretells_emptiness (hd : d.Reachable) (hp : p ∈ patterns text) {scope : Scope}
    (hscope : p.scope? d = some scope) :
    (∀ kind, .mayRenderEmpty p.source kind ∈ lint p.source d →
      interpolate p.source d (Switches.standard.set .aliasedPatterns true) .empty = .ok "") ∧
    (lint p.source d = [] → p.freeText? = none →
      (∀ clause ∈ p.clauses, ∀ g ∈ clause.groups, ∀ m ∈ g.members, m.negated = false) →
      ∃ kind name clause, p.kind? scope = some kind ∧ scope.default? kind = some name ∧
        p.clauses.filter (Clause.lists scope kind name) = [clause] ∧
        ∀ switches options, (switches.merged options.overrides).unknownDefaults →
          ((∀ requested, options.requested? kind scope.isStrict = some requested →
              scope.trueToken? requested kind = none) →
            interpolate p.source d switches options =
              .ok (clause.value.shownFor (scope.description? name))) ∧
          ((switches.merged options.overrides).excludedDefaults →
            ∃ clause ∈ p.clauses, ∃ name, clause.lists scope kind name ∧
              interpolate p.source d switches options =
                .ok (clause.value.shownFor (scope.description? name)))) := by
  have hs : scope.WellFormed := Pattern.wellFormed_of_scope? hd.toBuilt hscope
  rw [lint_source hp, Setting.checkPattern_of_scope? hscope]
  refine ⟨?_, ?_⟩
  · intro kind hwarned
    have hquiet : (Switches.merged (Switches.standard.set .aliasedPatterns true)
        Options.empty.overrides).raises = false := rfl
    rw [interpolate_source hp, Setting.answer_of_not_raises hquiet, Setting.shown,
      Setting.rendered_of_scope? hscope, Setting.value_renderSingle,
      Setting.choice_of_mayRenderEmpty hs rfl rfl (Options.requested?_empty ..) hwarned]
    rfl
  · intro hclean hfree hpositive
    have hwell : p.WellFormed := Pattern.wellFormed_of_mem_patterns hp
    have hclauses : p.clauses ≠ [] := by
      rcases hwell.nonempty with hne | ⟨s, hs, -⟩
      · exact hne
      · rw [hfree] at hs
        cases hs
    have hsurvey : (Lint.surveyed p scope).1 = [] :=
      (List.append_eq_nil_iff.1 ((Lint.checkSingle_eq p scope).symm.trans hclean)).1
    obtain ⟨kind, hkind⟩ := Setting.exists_kind_of_clean hs hwell hsurvey hclauses
    have hplain := Setting.plain_of_clean hs hwell hsurvey hkind hpositive
    obtain ⟨name, clause, hname, honce⟩ :=
      Setting.exists_default_of_clean hs hclean hkind hfree hplain
    refine ⟨kind, name, clause, hkind, hname, honce, ?_⟩
    intro switches options hunknown
    have hfind : p.clauses.find? (Clause.lists scope kind name) = some clause := by
      rw [← List.head?_filter, honce]
      rfl
    have hlisted : Setting.listed? scope kind name p.clauses =
        some (clause.value.shownFor (scope.description? name)) := by
      rw [Setting.listed?, hfind]
      rfl
    have hanswer := Setting.answer_of_clean (c := ⟨d, options, switches.merged options.overrides⟩)
      hd.toBuilt hscope hclean hkind (by rw [hname]; exact Option.some_ne_none name) hunknown
    rw [interpolate_source hp, hanswer, Setting.choice_of_plain hs hplain hkind]
    refine ⟨?_, ?_⟩
    · intro hinvalid
      have hoption := Setting.option?_of_invalid
        (c := ⟨d, options, switches.merged options.overrides⟩) hunknown hinvalid
      rw [hoption, hname, Option.bind_some, hlisted]
      rfl
    · intro hexcluded
      obtain ⟨option, hoption⟩ := Setting.exists_option?
        (c := ⟨d, options, switches.merged options.overrides⟩) hunknown hname
      rw [hoption, Option.bind_some, if_pos hexcluded, hname, Option.bind_some, hlisted,
        Setting.listed?]
      cases hchosen : p.clauses.find? (Clause.lists scope kind option) with
      | some chosen =>
        exact ⟨chosen, List.mem_of_find?_eq_some hchosen, option, List.find?_some hchosen, rfl⟩
      | none =>
        exact ⟨clause, List.mem_of_find?_eq_some hfind, name, List.find?_some hfind, rfl⟩

end

/-- The first pattern does not list the default and renders to nothing; the second lists it, so it
renders also for an unknown option and with faults raised. -/
theorem lint_foretells_emptiness_default :
    let d : Lexicon := ⟨"en", (LooseStore.empty "en").attemptAll
      [.addToken "f" "gender" "female", .addToken "m" "gender" "male", .setDefault "gender" "f"],
      .empty "en"⟩
    let p : Pattern := ⟨"@{m:Sir}", .loose, [.choice [⟨[⟨"m", false⟩]⟩] (.text "Sir")], none⟩
    let q : Pattern := ⟨"@{m:Sir|f:~}", .loose,
      [.choice [⟨[⟨"m", false⟩]⟩] (.text "Sir"), .choice [⟨[⟨"f", false⟩]⟩] .loud], none⟩
    let options : Options := Options.empty.insertIfValid "gender" "x"
    d.Reachable ∧ p ∈ patterns "@{m:Sir}" ∧ q ∈ patterns "@{m:Sir|f:~}" ∧
      .mayRenderEmpty "@{m:Sir}" "gender" ∈ lint "@{m:Sir}" d ∧ lint "@{m:Sir|f:~}" d = [] ∧
      interpolate "@{m:Sir}" d ⟨false, true, true, false⟩ .empty = .ok "" ∧
      interpolate "@{m:Sir|f:~}" d ⟨true, false, true, false⟩ options = .ok "female" := by
  intro d p q options
  have hd : d.Reachable := .built ⟨⟨"en", _, rfl⟩, ⟨"en", [], rfl⟩⟩
  have hp : p ∈ patterns "@{m:Sir}" := by decide +kernel
  have hq : q ∈ patterns "@{m:Sir|f:~}" := by decide +kernel
  have hwarned : .mayRenderEmpty "@{m:Sir}" "gender" ∈ lint "@{m:Sir}" d := by decide +kernel
  have hclean : lint "@{m:Sir|f:~}" d = [] := by decide +kernel
  have hpositive : ∀ clause ∈ q.clauses, ∀ g ∈ clause.groups, ∀ m ∈ g.members,
      m.negated = false := by
    decide
  refine ⟨hd, hp, hq, hwarned, hclean,
    (lint_foretells_emptiness hd hp rfl).1 "gender" hwarned, ?_⟩
  obtain ⟨kind, name, clause, hkind, hname, honce, hrenders⟩ :=
    (lint_foretells_emptiness hd hq rfl).2 hclean rfl hpositive
  have hkind' : q.kind? (.loose d.loose) = some "gender" := by decide +kernel
  obtain rfl : "gender" = kind := Option.some.inj (hkind'.symm.trans hkind)
  have hname' : (Scope.loose d.loose).default? "gender" = some "f" := by decide +kernel
  obtain rfl : "f" = name := Option.some.inj (hname'.symm.trans hname)
  have honce' : q.clauses.filter (Clause.lists (.loose d.loose) "gender" "f") =
      [.choice [⟨[⟨"f", false⟩]⟩] .loud] := by
    decide +kernel
  obtain ⟨rfl, -⟩ := List.cons.inj (honce'.symm.trans honce)
  refine ((hrenders ⟨true, false, true, false⟩ options rfl).1 ?_).trans ?_
  · intro requested hrequested
    have hx : options.requested? "gender" false = some "x" := by decide +kernel
    obtain rfl : "x" = requested := Option.some.inj (hx.symm.trans hrequested)
    decide +kernel
  · decide +kernel

end Inflection
