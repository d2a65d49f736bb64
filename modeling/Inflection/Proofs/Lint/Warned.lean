import Inflection.Proofs.Lint.Survey

/-!
# When lint warns of a pattern

What the warnings about a loose or named pattern say of its members, without the survey that they
come from.

## Main statements

* `Lint.plain_of_surveyClauses`: without warnings each clause has one group, and each member names
  a true token of the kind.
* `Lint.repeatedToken_mem_checkSingle_iff`: when a token is warned of as repeated.
* `Lint.mayRenderEmpty_mem_checkSingle_iff`: when a pattern is warned of as possibly empty.
-/

namespace Inflection

namespace Lint

variable {p : Pattern} {scope : Scope}

/-! ## No warnings -/

/-- A member that is not warned of names a true token. -/
theorem plain_of_checkMember {member : Member} (h : (checkMember p scope member).1 = []) :
    ∃ t, scope.token? member.name = some t ∧ t.target? = none ∧
      (checkMember p scope member).2 = some t := by
  cases hn : scope.token? member.name with
  | none =>
    rw [Setting.checkMember_of_unknown hn] at h
    cases h
  | some t =>
    cases ht : t.target? with
    | none => exact ⟨t, rfl, ht, congrArg Prod.snd (Setting.checkMember_of_plain hn ht)⟩
    | some target =>
      rw [Setting.checkMember_of_alias hn ht] at h
      cases h

theorem plain_of_surveyMembers {members : List Member} {s : Survey}
    (h : (surveyMembers p scope members s).1 = []) :
    ∀ m ∈ members, ∃ kind, scope.IsTrue kind m.name ∧
      (surveyMembers p scope members s).2.kind? = some kind := by
  induction members generalizing s with
  | nil => exact fun _ hm => (nomatch hm)
  | cons member members ih =>
    have hmember : (checkMember p scope member).1 = [] := by
      rw [List.eq_nil_iff_forall_not_mem]
      intro w hw
      have hmem : w ∈ (surveyMembers p scope (member :: members) s).1 :=
        Setting.mem_surveyMembers_of_mem hw
      rw [h] at hmem
      cases hmem
    obtain ⟨t, ht, htrue, hm⟩ := plain_of_checkMember hmember
    rw [Setting.surveyMembers_of_some hm] at h ⊢
    obtain ⟨htoken, hrest⟩ := List.append_eq_nil_iff.1 h
    have hkind : t.kind = s.kind?.getD t.kind := by
      by_contra hne
      rw [Setting.surveyToken_of_ne hne] at htoken
      exact absurd htoken (by simp)
    intro m hmem
    rcases List.mem_cons.1 hmem with rfl | hmem
    · exact ⟨t.kind, ⟨t, ht, htrue, rfl⟩,
        (Survey.accounted_surveyMembers members _).kind? _ (Setting.surveyToken_of_eq hkind)⟩
    · exact ih hrest m hmem

/-- Without warnings each clause has one group, and each of its members names a true token of the
kind. -/
theorem plain_of_surveyClauses {clauses : List Clause} {s : Survey}
    (h : (surveyClauses p scope clauses s).1 = []) :
    ∀ clause ∈ clauses, (∃ group, clause.groups = [group]) ∧
      ∀ m ∈ clause.members, ∃ kind, scope.IsTrue kind m.name ∧
        (surveyClauses p scope clauses s).2.kind? = some kind := by
  induction clauses generalizing s with
  | nil => exact fun _ hc => (nomatch hc)
  | cons clause clauses ih =>
    rcases clause.groups_cases with ⟨group, hgroup⟩ | hne
    · rw [Setting.surveyClauses_of_group hgroup] at h ⊢
      obtain ⟨hmembers, hrest⟩ := List.append_eq_nil_iff.1 h
      intro clause' hmem
      rcases List.mem_cons.1 hmem with rfl | hmem
      · refine ⟨⟨group, hgroup⟩, ?_⟩
        rw [Setting.members_of_group hgroup]
        intro m hm
        obtain ⟨kind, htrue, hkind⟩ := plain_of_surveyMembers hmembers m hm
        exact ⟨kind, htrue, (Survey.accounted_surveyClauses clauses _).kind? _ hkind⟩
      · exact ih hrest clause' hmem
    · rw [Setting.surveyClauses_of_ne hne] at h
      cases h

end Lint

/-! ## Patterns -/

/-- The members that the clauses of a loose or named pattern are read for. -/
def Pattern.members (p : Pattern) : List Member := p.clauses.flatMap Clause.members

/-- The kind of a loose or named pattern: that of its scope, or else that of the first token that
it names. -/
def Pattern.kind? (scope : Scope) (p : Pattern) : Option String :=
  scope.kind?.or (p.members.findSome? fun m => scope.kindOf? m.name)

namespace Lint

variable {p : Pattern} {scope : Scope}

/-- The survey of a pattern. -/
def surveyed (p : Pattern) (scope : Scope) : List Warning × Survey :=
  surveyClauses p scope p.clauses ⟨scope.kind?, [], [], false⟩

theorem checkSingle_eq (p : Pattern) (scope : Scope) :
    checkSingle p scope = (surveyed p scope).1 ++ checkCoverage p scope (surveyed p scope).2 := rfl

theorem sums_surveyed (hs : scope.WellFormed) :
    Survey.Sums scope scope.kind? p.members (surveyed p scope).2 :=
  Survey.sums_surveyClauses hs p.clauses (Survey.sums_start scope scope.kind?)

theorem mem_checkCoverage_iff {s : Survey} {w : Warning} :
    w ∈ checkCoverage p scope s ↔ ∃ kind, w = .mayRenderEmpty p.source kind ∧
      s.kind? = some kind ∧ p.freeText? = none ∧ s.negated = false ∧
      ∀ name, scope.default? kind = some name → name ∉ s.listed := by
  unfold checkCoverage
  split
  case isTrue h =>
    refine ⟨fun hmem => (nomatch hmem), ?_⟩
    rintro ⟨kind, -, -, hfree, hneg, -⟩
    rw [hfree, hneg] at h
    cases h
  case isFalse h =>
    rw [Bool.or_eq_true, not_or, Option.not_isSome_iff_eq_none, Bool.not_eq_true] at h
    cases s.kind? with
    | none => simp
    | some kind =>
      have hany : (scope.default? kind).any (· ∈ s.listed) ↔
          ∃ name, scope.default? kind = some name ∧ name ∈ s.listed := by
        cases scope.default? kind <;> simp
      dsimp only
      split
      case isTrue hlisted =>
        obtain ⟨name, hname, hmem⟩ := hany.1 hlisted
        refine ⟨fun hmem => (nomatch hmem), ?_⟩
        rintro ⟨kind', -, hkind, -, -, hnot⟩
        rw [← Option.some.inj hkind] at hnot
        exact absurd hmem (hnot name hname)
      case isFalse hlisted =>
        rw [List.mem_singleton]
        refine ⟨?_, ?_⟩
        · rintro rfl
          exact ⟨kind, rfl, rfl, h.1, h.2, fun name hname hmem =>
            hlisted (hany.2 ⟨name, hname, hmem⟩)⟩
        · rintro ⟨kind, rfl, hkind, -⟩
          rw [Option.some.inj hkind]

/-- A token is warned of as repeated exactly when the pattern lists it twice or more. -/
theorem repeatedToken_mem_checkSingle_iff (hs : scope.WellFormed) {source name : String} :
    .repeatedToken source name ∈ checkSingle p scope ↔
      source = p.source ∧ ∃ kind, p.kind? scope = some kind ∧
        2 ≤ p.members.countP (Member.lists scope kind name) := by
  have hsums := sums_surveyed (p := p) hs
  have hkind : (surveyed p scope).2.kind? = p.kind? scope := hsums.kind?
  have hcoverage : .repeatedToken source name ∉ checkCoverage p scope (surveyed p scope).2 := by
    intro hmem
    obtain ⟨kind, hw, -⟩ := mem_checkCoverage_iff.1 hmem
    cases hw
  have haccounted : Survey.Accounted p ⟨scope.kind?, [], [], false⟩ (surveyed p scope) :=
    Survey.accounted_surveyClauses p.clauses _
  rw [checkSingle_eq, List.mem_append, or_iff_left hcoverage, haccounted.repeated]
  refine and_congr_right fun _ => ?_
  rw [and_iff_right List.not_mem_nil]
  refine (hsums.repeated name).trans ?_
  rw [hkind]
  cases p.kind? scope with
  | none => simp
  | some kind => simp

/-- Without that warning a pattern lists a token once at most. -/
theorem countP_lists_le_one (hs : scope.WellFormed) {kind : String}
    (hkind : p.kind? scope = some kind)
    (h : ∀ name, .repeatedToken p.source name ∉ checkSingle p scope) (name : String) :
    p.members.countP (Member.lists scope kind name) ≤ 1 := by
  by_contra htwice
  exact h name ((repeatedToken_mem_checkSingle_iff hs).2 ⟨rfl, kind, hkind, by omega⟩)

/-- A pattern is warned of as possibly empty exactly when it has a kind but no free text, negates
no token of the kind and does not list its default. -/
theorem mayRenderEmpty_mem_checkSingle_iff (hs : scope.WellFormed) {source kind : String} :
    .mayRenderEmpty source kind ∈ checkSingle p scope ↔
      source = p.source ∧ p.kind? scope = some kind ∧ p.freeText? = none ∧
        (∀ m ∈ p.members, ¬m.negates scope kind) ∧
        ∀ name, scope.default? kind = some name → ∀ m ∈ p.members, ¬m.lists scope kind name := by
  have hsums := sums_surveyed (p := p) hs
  have hkind : (surveyed p scope).2.kind? = p.kind? scope := hsums.kind?
  have hsurvey : .mayRenderEmpty source kind ∉ (surveyed p scope).1 :=
    (Survey.accounted_surveyClauses p.clauses _).mayRenderEmpty source kind
  rw [checkSingle_eq, List.mem_append, or_iff_right hsurvey, mem_checkCoverage_iff]
  have hlists (hk : p.kind? scope = some kind) (name : String) :
      name ∉ (surveyed p scope).2.listed ↔ ∀ m ∈ p.members, ¬m.lists scope kind name := by
    rw [hsums.listed, hkind, hk, Nat.one_le_iff_ne_zero, not_not]
    exact List.countP_eq_zero
  have hnegates (hk : p.kind? scope = some kind) :
      (surveyed p scope).2.negated = false ↔ ∀ m ∈ p.members, ¬m.negates scope kind := by
    rw [hsums.negated, hkind, hk]
    exact List.any_eq_false
  rw [hkind]
  refine ⟨?_, ?_⟩
  · rintro ⟨kind', hw, hk, hfree, hneg, hdefault⟩
    obtain ⟨rfl, rfl⟩ := Warning.mayRenderEmpty.inj hw
    exact ⟨rfl, hk, hfree, (hnegates hk).1 hneg,
      fun name hname => (hlists hk name).1 (hdefault name hname)⟩
  · rintro ⟨rfl, hk, hfree, hneg, hdefault⟩
    exact ⟨kind, rfl, hk, hfree, (hnegates hk).2 hneg,
      fun name hname => (hlists hk name).2 (hdefault name hname)⟩

end Lint

end Inflection
