import Inflection.Proofs.Lint.Emptiness
import Inflection.Proofs.Render.Mirror

/-!
# Clauses in another order

In general the order of clauses matters: the first that applies is chosen, the first token fixes the
kind, and a clause that lists the default may stand in for a later one.  Where lint has nothing to
say about the tokens of a pattern and none of them is negated, every clause is plain and no two list
the same token, so any order gives the same text or the same fault.

## Main statements

* `Lint.isOfToken_of_mem_surveyClauses`: all that a survey warns of are tokens.
* `Setting.faults_renderSingle_of_plain`: plain clauses are at fault only for the option.
* `Setting.renderSingle_of_reorders`: plain clauses render alike in any order.
* `interpolate_of_reorders`: so do those of a pattern whose tokens lint has nothing to say of.
-/

namespace Inflection

/-- Whether a warning is about a token of a loose or named pattern. -/
def Warning.isOfToken : Warning → Bool
  | unknownToken _ _ => true
  | aliasInPattern _ _ _ => true
  | misplacedToken _ _ _ _ => true
  | repeatedToken _ _ => true
  | _ => false

/-! ## What a survey warns of -/

namespace Lint

variable {p : Pattern} {scope : Scope} {w : Warning}

theorem isOfToken_of_mem_checkMember {member : Member}
    (h : w ∈ (checkMember p scope member).1) : w.isOfToken := by
  unfold checkMember at h
  split at h
  · rw [List.mem_singleton.1 h]
    rfl
  · split at h
    · cases h
    · rw [List.mem_singleton.1 h]
      rfl

theorem isOfToken_of_mem_surveyToken {member : Member} {t : Token} {s : Survey}
    (h : w ∈ (surveyToken p member t s).1) : w.isOfToken := by
  by_cases hkind : t.kind = s.kind?.getD t.kind
  · rw [surveyToken, if_pos hkind] at h
    dsimp only at h
    split at h
    · cases h
    · split at h
      · cases h
      · split at h
        · rw [List.mem_singleton.1 h]
          rfl
        · cases h
  · rw [Setting.surveyToken_of_ne hkind] at h
    rw [List.mem_singleton.1 h]
    rfl

theorem isOfToken_of_mem_surveyMembers {members : List Member} {s : Survey}
    (h : w ∈ (surveyMembers p scope members s).1) : w.isOfToken := by
  induction members generalizing s with
  | nil => cases h
  | cons member members ih =>
    cases hm : (checkMember p scope member).2 with
    | none =>
      rw [surveyMembers_of_none hm] at h
      rcases List.mem_append.1 h with h | h
      · exact isOfToken_of_mem_checkMember h
      · exact ih h
    | some t =>
      rw [Setting.surveyMembers_of_some hm] at h
      rcases List.mem_append.1 h with h | h
      · rcases List.mem_append.1 h with h | h
        · exact isOfToken_of_mem_checkMember h
        · exact isOfToken_of_mem_surveyToken h
      · exact ih h

theorem isOfToken_of_mem_surveyClauses {clauses : List Clause} {s : Survey}
    (h : w ∈ (surveyClauses p scope clauses s).1) : w.isOfToken := by
  induction clauses generalizing s with
  | nil => cases h
  | cons clause clauses ih =>
    rcases clause.groups_cases with ⟨group, hgroup⟩ | hne
    · rw [Setting.surveyClauses_of_group hgroup] at h
      rcases List.mem_append.1 h with h | h
      · exact isOfToken_of_mem_surveyMembers h
      · exact ih h
    · rw [Setting.surveyClauses_of_ne hne] at h
      rcases List.mem_cons.1 h with rfl | h
      · rfl
      · exact ih h

end Lint

/-! ## Plain clauses in any order -/

/-- A pattern is another one with its clauses in some order. -/
structure Pattern.Reorders (q p : Pattern) : Prop where
  target : q.target = p.target
  clauses : q.clauses.Perm p.clauses
  freeText? : q.freeText? = p.freeText?

namespace Setting

variable {c : Setting} {p q : Pattern} {scope : Scope} {kind name : String}

/-! ### The value -/

/-- The kind of plain clauses is that of any of their tokens. -/
theorem kind?_of_plain (hs : scope.WellFormed) (hstart : ∀ k, scope.kind? = some k → k = kind)
    (h : ∀ clause ∈ p.clauses, clause.Plain scope kind) (hne : p.clauses ≠ []) :
    p.kind? scope = some kind := by
  cases hk : scope.kind? with
  | some k => rw [Pattern.kind?, hk, hstart k hk, Option.some_or]
  | none =>
    have hkinds : ∀ m ∈ p.members, scope.kindOf? m.name = some kind := by
      intro m hm
      obtain ⟨clause, hclause, hm⟩ := List.mem_flatMap.1 hm
      exact Scope.kindOf?_of_trueToken? (hs.trueToken?_of_isTrue ((h clause hclause).isTrue m hm))
    obtain ⟨clause, hclause⟩ := List.exists_mem_of_ne_nil _ hne
    obtain ⟨m, hm⟩ := List.exists_mem_of_ne_nil _ (h clause hclause).nonempty
    have hmem : m ∈ p.members := List.mem_flatMap.2 ⟨clause, hclause, hm⟩
    rw [Pattern.kind?, hk, Option.none_or]
    cases hmembers : p.members with
    | nil => rw [hmembers] at hmem; cases hmem
    | cons m' ms =>
      rw [List.findSome?_cons, hkinds m' (hmembers ▸ List.mem_cons_self)]

/-- If no two clauses list a token, it does not matter in which order they come. -/
theorem listed?_of_perm {clauses clauses' : List Clause} (h : clauses'.Perm clauses)
    (honce : (clauses.filter (Clause.lists scope kind name)).length ≤ 1) :
    listed? scope kind name clauses' = listed? scope kind name clauses := by
  have hone : {clause ∈ clauses | Clause.lists scope kind name clause}.Subsingleton := by
    intro clause hclause clause' hclause'
    have hmem := List.mem_filter.2 hclause
    have hmem' := List.mem_filter.2 hclause'
    obtain ⟨only, honly⟩ := List.length_eq_one_iff.1
      (Nat.le_antisymm honce (List.length_pos_of_mem hmem))
    rw [honly, List.mem_singleton] at hmem hmem'
    rw [hmem, hmem']
  rw [listed?, listed?, List.find?_eq_find?_of_perm h.symm hone]

/-! ### The faults -/

theorem faults_resolveMembers_of_isTrue {members : List Member}
    (h : ∀ m ∈ members, scope.IsTrue kind m.name) {kind? : Option String}
    (hkind : ∀ k, kind? = some k → k = kind) :
    (c.resolveMembers p scope members kind? : Report _).faults = [] := by
  induction members generalizing kind? with
  | nil => rfl
  | cons member members ih =>
    obtain ⟨htrue, hrest⟩ := List.forall_mem_cons.1 h
    obtain ⟨t, ht, hplain, rfl⟩ := htrue
    have hsame : t.kind = kind?.getD t.kind := by
      cases kind? with
      | none => rfl
      | some k => exact (hkind k rfl).symm
    rw [resolveMembers, resolveMember_of_some (lookUp_of_plain c ht hplain), pure_bind]
    dsimp only
    rw [if_pos hsame, Report.faults_bind, ← hsame]
    exact List.append_eq_nil_iff.2
      ⟨ih hrest fun k hk => (Option.some.inj hk).symm, rfl⟩

/-- The group of a plain clause resolves to tokens of the kind, without faults. -/
theorem resolveGroup_of_plain (hs : scope.WellFormed) {clause : Clause} {group : Group}
    (hgroup : clause.groups = [group]) (h : clause.Plain scope kind) {kind? : Option String}
    (hkind : ∀ k, kind? = some k → k = kind) :
    ∃ tokens,
      (c.resolveGroup p scope kind? group : Report _) = pure (some kind, some tokens) := by
  have hmembers : clause.members = group.members := members_of_group hgroup
  have hlive : Mention.isLive kind (c.mentions scope group) := by
    have hlive := isLive_of_plain (c := c) hs h
    rwa [Reading.isLive, reading, hmembers] at hlive
  have hfaults : (c.resolveMembers p scope group.members kind? : Report _).faults = [] :=
    faults_resolveMembers_of_isTrue (fun m hm => h.isTrue m (hmembers ▸ hm)) hkind
  refine ⟨Mention.tokens (c.mentions scope group), Report.ext ?_ ?_⟩
  · have hfirst : kind?.or ((c.mentions scope group).head?.map (·.token.kind)) = some kind := by
      cases kind? with
      | some k => rw [hkind k rfl, Option.some_or]
      | none =>
        rw [Mention.isLive, Bool.and_eq_true, List.all_eq_true] at hlive
        cases hms : c.mentions scope group with
        | nil => rw [hms] at hlive; cases hlive.1
        | cons m ms =>
          exact congrArg some (beq_iff_eq.1 (hlive.2 m (hms ▸ List.mem_cons_self)))
    rw [value_resolveGroup]
    dsimp only
    rw [hfirst, Option.bind_some, if_pos hlive]
    rfl
  · rw [resolveGroup, Report.faults_bind, hfaults]
    rfl

/-- Once a selection has been made plain clauses are not at fault; before, the selection is made at
the first of them. -/
theorem faults_renderFrom_of_plain (hs : scope.WellFormed) {clauses : List Clause}
    (h : ∀ clause ∈ clauses, clause.Plain scope kind) {s : Progress}
    (hkind : ∀ k, s.kind? = some k → k = kind) :
    (c.renderFrom p scope clauses s : Report String).faults =
      if clauses = [] then [] else (c.selected p scope kind s.selection? : Report _).faults := by
  induction clauses generalizing s with
  | nil => rfl
  | cons clause clauses ih =>
    obtain ⟨hclause, hclauses⟩ := List.forall_mem_cons.1 h
    obtain ⟨group, hgroup⟩ := hclause.group
    obtain ⟨tokens, htokens⟩ := resolveGroup_of_plain (c := c) (p := p) hs hgroup hclause hkind
    rw [renderFrom_of_group hgroup, htokens, pure_bind, renderGroup, Report.faults_bind,
      if_neg (List.cons_ne_nil clause clauses)]
    refine (congrArg _ ?_).trans (List.append_nil _)
    rw [renderChoice]
    split
    · rfl
    · rw [ih hclauses fun k hk => (Option.some.inj hk).symm]
      split <;> rfl

theorem faults_renderSingle_of_plain (hs : scope.WellFormed)
    (h : ∀ clause ∈ p.clauses, clause.Plain scope kind) (hne : p.clauses ≠ [])
    (hstart : ∀ k, scope.kind? = some k → k = kind) :
    (c.renderSingle p scope : Report String).faults =
      (c.select p scope kind : Report Selection).faults := by
  rw [renderSingle, faults_renderFrom_of_plain hs h hstart, if_neg hne]
  rfl

/-! ### Both -/

/-- The same clauses and free text render alike under another source. -/
theorem renderSingle_of_clauses_eq (hclauses : q.clauses = p.clauses)
    (hfree : q.freeText? = p.freeText?) :
    (c.renderSingle q scope : Report String) =
      Report.mapFaults (Fault.inPattern q.source) (c.renderSingle p scope) := by
  rw [renderSingle, renderSingle, hclauses]
  exact (Mirrors.refl c scope).renderFrom (Fault.carries_inPattern p.source q.source) hfree
    p.clauses fun _ _ => trivial

/-- Plain clauses of which no two list the same token render alike in any order. -/
theorem renderSingle_of_reorders (hs : scope.WellFormed)
    (h : ∀ clause ∈ p.clauses, clause.Plain scope kind) (hkind : p.kind? scope = some kind)
    (honce : ∀ name, (p.clauses.filter (Clause.lists scope kind name)).length ≤ 1)
    (hne : p.clauses ≠ []) (hq : q.Reorders p) :
    (c.renderSingle q scope : Report String) =
      Report.mapFaults (Fault.inPattern q.source) (c.renderSingle p scope) := by
  have hstart : ∀ k, scope.kind? = some k → k = kind := by
    intro k hk
    rw [Pattern.kind?, hk] at hkind
    exact Option.some.inj hkind
  have h' : ∀ clause ∈ q.clauses, clause.Plain scope kind :=
    fun clause hclause => h clause (hq.clauses.subset hclause)
  have hne' : q.clauses ≠ [] := fun he => hne (List.nil_perm.1 (he ▸ hq.clauses))
  have hkind' : q.kind? scope = some kind := kind?_of_plain hs hstart h' hne'
  have hlisted (name : String) := listed?_of_perm hq.clauses (honce name)
  refine Report.ext ?_ ?_
  · rw [value_renderSingle, Report.value_mapFaults, value_renderSingle,
      choice_of_plain hs h' hkind', choice_of_plain hs h hkind, Pattern.freeText,
      Pattern.freeText, hq.freeText?]
    simp only [hlisted]
  · rw [Report.faults_mapFaults, faults_renderSingle_of_plain hs h' hne' hstart,
      faults_renderSingle_of_plain hs h hne hstart,
      (Mirrors.refl c scope).select (Fault.carries_inPattern p.source q.source) trivial]
    rfl

end Setting

/-! ## Texts -/

/-- Clauses without a bare one may stand in any order. -/
theorem Pattern.WellFormed.reorder {p : Pattern} (h : p.WellFormed)
    (hgroup : ∀ clause ∈ p.clauses, ∃ group, clause.groups = [group]) {clauses : List Clause}
    (hperm : clauses.Perm p.clauses) : { p with clauses := clauses }.WellFormed where
  target := h.target
  clauses clause hclause := h.clauses clause (hperm.subset hclause)
  freeText := h.freeText
  last _ s hlast := by
    obtain ⟨group, hgroup⟩ := hgroup _ (hperm.subset (List.mem_of_getLast? hlast))
    cases hgroup
  nonempty := by
    refine h.nonempty.imp_left ?_
    rintro hne rfl
    exact hne (List.nil_perm.1 hperm)

/-- The order of the clauses does not matter for a loose pattern, or a named one of a known kind,
that negates no member and of whose tokens there is nothing to warn: each order can be written, and
whatever pattern has these clauses in some order renders to the same text, or fails with the same
fault but for its source. -/
theorem interpolate_of_reorders {d : Lexicon} (hd : d.Reachable) {text : String} {p : Pattern}
    (hp : p ∈ patterns text) {scope : Scope} (hscope : p.scope? d = some scope)
    (hpositive : ∀ clause ∈ p.clauses, ∀ g ∈ clause.groups, ∀ m ∈ g.members, m.negated = false)
    (hclean : ∀ w ∈ lint p.source d, w.isOfToken = false) :
    (∀ clauses, clauses.Perm p.clauses →
      ∃ q ∈ patterns q.source, q.Reorders p ∧ q.clauses = clauses) ∧
    ∀ text' q, q ∈ patterns text' → q.Reorders p → ∀ switches options,
      interpolate q.source d switches options =
        (interpolate p.source d switches options).mapError (Fault.inPattern q.source) := by
  have hs : scope.WellFormed := Pattern.wellFormed_of_scope? hd.toBuilt hscope
  have hwell : p.WellFormed := Pattern.wellFormed_of_mem_patterns hp
  rw [lint_source hp, Setting.checkPattern_of_scope? hscope] at hclean
  have hsurvey : (Lint.surveyed p scope).1 = [] := by
    refine List.eq_nil_iff_forall_not_mem.2 ?_
    intro w hw
    have hfalse := hclean w (by rw [Lint.checkSingle_eq]; exact List.mem_append_left _ hw)
    rw [Lint.isOfToken_of_mem_surveyClauses hw] at hfalse
    cases hfalse
  have hgroups : ∀ clause ∈ p.clauses, ∃ group, clause.groups = [group] :=
    fun clause hclause => (Lint.plain_of_surveyClauses hsurvey clause hclause).1
  refine ⟨?_, ?_⟩
  · intro clauses hperm
    have hscan := Pattern.scan_written (hwell.reorder hgroups hperm)
    exact ⟨{ p with clauses, source := Pattern.written { p with clauses } },
      mem_patterns_of_scan hscan, ⟨rfl, hperm, rfl⟩, rfl⟩
  · intro text' q hq hreorders switches options
    have hscope' : q.scope? d = some scope := by
      rw [← hscope, Pattern.scope?, Pattern.scope?, hreorders.target]
    rw [interpolate_source hp, interpolate_source hq]
    refine Setting.answer_of_renderPattern rfl ?_
    rw [Setting.renderPattern_of_scope? hscope', Setting.renderPattern_of_scope? hscope]
    by_cases hne : p.clauses = []
    · refine Setting.renderSingle_of_clauses_eq ?_ hreorders.freeText?
      rw [hne]
      exact List.perm_nil.1 (hne ▸ hreorders.clauses)
    · obtain ⟨kind, hkind⟩ := Setting.exists_kind_of_clean hs hwell hsurvey hne
      have hplain := Setting.plain_of_clean hs hwell hsurvey hkind hpositive
      have honce (name : String) := Lint.countP_lists_le_one hs hkind
        (fun name hw => Bool.noConfusion (hclean _ hw)) name
      exact Setting.renderSingle_of_reorders hs hplain hkind
        (fun name => (Setting.length_filter_lists_le p.clauses name).trans (honce name)) hne
        hreorders

/-- With the clauses the other way round the text is the same, and so is the fault of an unknown
option. -/
theorem interpolate_of_reorders_swap :
    let d : Lexicon := ⟨"en", (LooseStore.empty "en").attemptAll
      [.addToken "f" "gender" "female", .addToken "m" "gender" "male"], .empty "en"⟩
    let p : Pattern := ⟨"@{f:Lady|m:Sir|friend}", .loose,
      [.choice [⟨[⟨"f", false⟩]⟩] (.text "Lady"),
      .choice [⟨[⟨"m", false⟩]⟩] (.text "Sir")], some "friend"⟩
    let q : Pattern := ⟨"@{m:Sir|f:Lady|friend}", .loose, [.choice [⟨[⟨"m", false⟩]⟩] (.text "Sir"),
      .choice [⟨[⟨"f", false⟩]⟩] (.text "Lady")], some "friend"⟩
    let options : Options := Options.empty.insertIfValid "gender" "f"
    let unknown : Options := Options.empty.insertIfValid "gender" "x"
    d.Reachable ∧ p ∈ patterns p.source ∧ q ∈ patterns q.source ∧ q.Reorders p ∧
      (∀ w ∈ lint p.source d, w.isOfToken = false) ∧
      interpolate q.source d Switches.standard options = .ok "Lady" ∧
      interpolate q.source d (Switches.standard.set .raises true) unknown =
        .error (.optionIncorrect q.source "gender" "x") := by
  intro d p q options unknown
  have hd : d.Reachable := .built ⟨⟨"en", _, rfl⟩, ⟨"en", [], rfl⟩⟩
  have hp : p ∈ patterns p.source := by decide +kernel
  have hq : q ∈ patterns q.source := by decide +kernel
  have hreorders : q.Reorders p := ⟨rfl, .swap .., rfl⟩
  have hpositive : ∀ clause ∈ p.clauses, ∀ g ∈ clause.groups, ∀ m ∈ g.members,
      m.negated = false := by
    decide
  have hclean : ∀ w ∈ lint p.source d, w.isOfToken = false := by decide +kernel
  have hlady : interpolate p.source d Switches.standard options = .ok "Lady" := by decide +kernel
  have hfault : interpolate p.source d (Switches.standard.set .raises true) unknown =
      .error (.optionIncorrect p.source "gender" "x") := by
    decide +kernel
  have hany := (interpolate_of_reorders hd hp rfl hpositive hclean).2 _ q hq hreorders
  refine ⟨hd, hp, hq, hreorders, hclean, (hany _ _).trans ?_, (hany _ _).trans ?_⟩
  · exact congrArg (Except.mapError _) hlady
  · exact congrArg (Except.mapError _) hfault

end Inflection
