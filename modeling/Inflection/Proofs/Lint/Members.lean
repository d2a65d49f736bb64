import Inflection.Lint.Check
import Inflection.Proofs.Except
import Inflection.Proofs.Render.Scope

/-!
# Faults and warnings of members

Rendering and lint both go through the members of a group.  Rendering with faults raised stops at
the first member that is at fault; lint goes on.  Up to that member the two see the same tokens and
infer the same kind, and lint has a warning for the member itself.

## Main statements

* `Setting.resolveMembers_survey`: the faults of members are warned of, and the kind is the same.
* `Setting.resolveMembers_strict`: in a scope of one kind no token is misplaced.
-/

namespace Inflection

/-! ## Warnings of faults -/

/-- A warning tells of a fault before any rendering. -/
inductive Fault.WarnedBy : Fault → Warning → Prop
  | unknownKind (pattern kind : String) :
      WarnedBy (.invalidKind pattern kind) (.unknownKind pattern kind)
  | unknownToken (pattern token : String) :
      WarnedBy (.invalidToken pattern token) (.unknownToken pattern token)
  | aliasInPattern (pattern : String) (member : Member) (target : String) :
      WarnedBy (.invalidToken pattern member.text) (.aliasInPattern pattern member.name target)
  | misplacedToken (pattern token kind expected : String) :
      WarnedBy (.misplacedToken pattern token kind expected)
        (.misplacedToken pattern token kind expected)
  | complexArity (pattern tokens : String) (expected got : Nat) :
      WarnedBy (.complexPatternMalformed pattern tokens expected got)
        (.complexArity pattern tokens expected got)

/-- Whether the fault is one of the options of the call. -/
def Fault.isOption : Fault → Bool
  | optionNotFound _ _ => true
  | optionIncorrect _ _ _ => true
  | _ => false

/-- Whether the warning tells of a fault. -/
def Warning.isStructural : Warning → Bool
  | repeatedToken _ _ => false
  | mayRenderEmpty _ _ => false
  | _ => true

theorem Fault.WarnedBy.isStructural {f : Fault} {w : Warning} (h : f.WarnedBy w) :
    w.isStructural := by
  cases h <;> rfl

namespace Setting

open Lint

variable {c : Setting} {p : Pattern} {scope : Scope}

/-! ## Members -/

theorem resolveMember_of_some {m : Type → Type} [Monad m] [MonadFault m] {member : Member}
    {t : Token} (h : c.lookUp scope member.name = some t) :
    (c.resolveMember p scope member : m (Option Token)) = pure (some t) := by
  rw [resolveMember, h]

theorem checkMember_of_unknown {member : Member} (h : scope.token? member.name = none) :
    checkMember p scope member = ([.unknownToken p.source member.text], none) := by
  rw [checkMember, h]

theorem checkMember_of_plain {member : Member} {t : Token}
    (h : scope.token? member.name = some t) (ht : t.target? = none) :
    checkMember p scope member = ([], some t) := by
  rw [checkMember, h]
  simp only [ht]

theorem checkMember_of_alias {member : Member} {t : Token} {target : String}
    (h : scope.token? member.name = some t) (ht : t.target? = some target) :
    checkMember p scope member =
      ([.aliasInPattern p.source t.name target], scope.token? target) := by
  rw [checkMember, h]
  simp only [ht]

/-- Lint and rendering see the same token behind a member that mentions one. -/
theorem checkMember_of_some {member : Member} {t : Token}
    (h : c.lookUp scope member.name = some t) : (checkMember p scope member).2 = some t := by
  cases hn : scope.token? member.name with
  | none => simp [lookUp, hn] at h
  | some u =>
    cases hu : u.target? with
    | none =>
      rw [lookUp_of_plain c hn hu] at h
      rw [checkMember_of_plain hn hu]
      exact h
    | some target =>
      rw [lookUp_of_alias c hn hu] at h
      rw [checkMember_of_alias hn hu]
      split at h
      · exact h
      · cases h

/-- A member that mentions no token is warned of. -/
theorem warned_of_none (hs : scope.WellFormed) {member : Member}
    (h : c.lookUp scope member.name = none) :
    ∃ w ∈ (checkMember p scope member).1, (Fault.invalidToken p.source member.text).WarnedBy w := by
  cases hn : scope.token? member.name with
  | none =>
    rw [checkMember_of_unknown hn]
    exact ⟨_, List.mem_singleton_self _, .unknownToken ..⟩
  | some u =>
    cases hu : u.target? with
    | none =>
      rw [lookUp_of_plain c hn hu] at h
      cases h
    | some target =>
      rw [checkMember_of_alias hn hu, hs.name_eq hn]
      exact ⟨_, List.mem_singleton_self _, .aliasInPattern ..⟩

theorem surveyToken_of_eq {member : Member} {t : Token} {s : Survey}
    (h : t.kind = s.kind?.getD t.kind) : (surveyToken p member t s).2.kind? = some t.kind := by
  unfold surveyToken
  rw [if_pos h, ← h]
  dsimp only
  split
  · rfl
  · split
    · rfl
    · split <;> rfl

theorem surveyToken_of_ne {member : Member} {t : Token} {s : Survey}
    (h : ¬t.kind = s.kind?.getD t.kind) :
    (surveyToken p member t s).1 =
      [.misplacedToken p.source member.name t.kind (s.kind?.getD t.kind)] := by
  unfold surveyToken
  rw [if_neg h]

theorem surveyMembers_of_some {member : Member} {members : List Member} {s : Survey} {t : Token}
    (h : (checkMember p scope member).2 = some t) :
    surveyMembers p scope (member :: members) s =
      ((checkMember p scope member).1 ++ (surveyToken p member t s).1 ++
          (surveyMembers p scope members (surveyToken p member t s).2).1,
        (surveyMembers p scope members (surveyToken p member t s).2).2) := by
  rw [surveyMembers]
  generalize checkMember p scope member = checked at h ⊢
  obtain ⟨warnings, token?⟩ := checked
  cases h
  rfl

theorem mem_surveyMembers_of_mem {member : Member} {members : List Member} {s : Survey}
    {w : Warning} (h : w ∈ (checkMember p scope member).1) :
    w ∈ (surveyMembers p scope (member :: members) s).1 := by
  rw [surveyMembers]
  generalize checkMember p scope member = checked at h ⊢
  obtain ⟨warnings, token?⟩ := checked
  cases token? with
  | none => exact List.mem_append_left _ h
  | some t => exact List.mem_append_left _ (List.mem_append_left _ h)

/-- Up to the first fault lint infers the kind that rendering does, and it warns of that fault. -/
theorem resolveMembers_survey (hs : scope.WellFormed) (members : List Member) (s : Survey) :
    (∀ f, (c.resolveMembers p scope members s.kind? : Except Fault _) = .error f →
      ∃ w ∈ (surveyMembers p scope members s).1, f.WarnedBy w) ∧
    (∀ kind? tokens?, c.resolveMembers p scope members s.kind? =
        (.ok (kind?, tokens?) : Except Fault _) →
      (surveyMembers p scope members s).2.kind? = kind? ∧
        kind? = s.kind?.or (members.findSome? fun m => scope.kindOf? m.name)) := by
  induction members generalizing s with
  | nil =>
    refine ⟨fun _ h => (nomatch h), ?_⟩
    intro _ _ h
    cases h
    exact ⟨rfl, by simp⟩
  | cons member members ih =>
    rw [resolveMembers]
    cases hl : c.lookUp scope member.name with
    | none =>
      rw [resolveMember, hl]
      refine ⟨?_, fun _ _ h => (nomatch h)⟩
      intro f h
      cases h
      obtain ⟨w, hw, hf⟩ := warned_of_none (p := p) hs hl
      exact ⟨w, mem_surveyMembers_of_mem hw, hf⟩
    | some t =>
      rw [resolveMember_of_some hl, surveyMembers_of_some (checkMember_of_some hl)]
      simp only [pure_bind]
      split
      case isTrue hkind =>
        rw [← hkind]
        have hs' : (surveyToken p member t s).2.kind? = some t.kind := surveyToken_of_eq hkind
        obtain ⟨herror, hok⟩ := ih (surveyToken p member t s).2
        rw [hs'] at herror hok
        refine ⟨?_, ?_⟩
        · intro f h
          rcases bind_eq_error_iff.1 h with h | ⟨a, -, h⟩
          · obtain ⟨w, hw, hf⟩ := herror f h
            exact ⟨w, List.mem_append_right _ hw, hf⟩
          · cases h
        · intro kind? tokens? h
          obtain ⟨⟨kind?', tokens?'⟩, hrest, hpure⟩ := bind_eq_ok_iff.1 h
          cases hpure
          obtain ⟨hsurvey, hfirst⟩ := hok _ _ hrest
          refine ⟨hsurvey, hfirst.trans ?_⟩
          rw [List.findSome?_cons, kind_of_lookUp hs hl]
          cases hk : s.kind? with
          | none => rfl
          | some kind =>
            rw [hk] at hkind
            exact congrArg some hkind
      case isFalse hkind =>
        refine ⟨?_, fun _ _ h => (nomatch h)⟩
        intro f h
        cases h
        rw [surveyToken_of_ne hkind]
        exact ⟨_, by simp, .misplacedToken ..⟩

theorem resolveGroup_survey (hs : scope.WellFormed) (group : Group) (s : Survey) :
    (∀ f, (c.resolveGroup p scope s.kind? group : Except Fault _) = .error f →
      ∃ w ∈ (surveyMembers p scope group.members s).1, f.WarnedBy w) ∧
    (∀ kind? tokens?, c.resolveGroup p scope s.kind? group =
        (.ok (kind?, tokens?) : Except Fault _) →
      (surveyMembers p scope group.members s).2.kind? = kind? ∧
        kind? = s.kind?.or (group.members.findSome? fun m => scope.kindOf? m.name)) := by
  obtain ⟨herror, hok⟩ := resolveMembers_survey (c := c) (p := p) hs group.members s
  unfold resolveGroup
  refine ⟨?_, ?_⟩
  · intro f h
    rcases bind_eq_error_iff.1 h with h | ⟨a, -, h⟩
    · exact herror f h
    · cases h
  · intro kind? tokens? h
    obtain ⟨⟨kind?', tokens?'⟩, hmembers, hpure⟩ := bind_eq_ok_iff.1 h
    cases hpure
    exact hok _ _ hmembers

/-- In a scope of one kind no token is misplaced, so each fault of a group is one of a member. -/
theorem resolveMembers_strict (hs : scope.WellFormed) {kind : String}
    (hscope : scope.kind? = some kind) {f : Fault} (members : List Member) {kind? : Option String}
    (hk : kind? = none ∨ kind? = some kind)
    (h : (c.resolveMembers p scope members kind? : Except Fault _) = .error f) :
    ∃ m ∈ members, ∃ w ∈ (checkMember p scope m).1, f.WarnedBy w := by
  induction members generalizing kind? with
  | nil => cases h
  | cons member members ih =>
    rw [resolveMembers] at h
    cases hl : c.lookUp scope member.name with
    | none =>
      rw [resolveMember, hl] at h
      cases h
      exact ⟨member, List.mem_cons_self, warned_of_none hs hl⟩
    | some t =>
      rw [resolveMember_of_some hl] at h
      simp only [pure_bind] at h
      have hkind : t.kind = kind := by
        have hmember := kind_of_lookUp hs hl
        obtain ⟨u, hu, hut⟩ := Option.map_eq_some_iff.1 hmember
        exact hut.symm.trans (hs.kind_eq hscope hu)
      have hexpected : kind?.getD t.kind = t.kind := by
        rcases hk with rfl | rfl
        · rfl
        · exact hkind.symm
      rw [if_pos hexpected.symm, hexpected, hkind] at h
      rcases bind_eq_error_iff.1 h with h | ⟨a, -, h⟩
      · obtain ⟨m, hm, hw⟩ := ih (.inr rfl) h
        exact ⟨m, List.mem_cons_of_mem _ hm, hw⟩
      · cases h

end Setting

end Inflection
