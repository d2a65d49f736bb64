import Inflection.Proofs.Lint.Coverage

/-!
# What lint surveys

Lint keeps one survey over all members of a loose or named pattern.  `Survey.Sums` says what the
survey amounts to without the loop: how often each token of the kind is listed, be it by its name
or through an alias, and whether one is negated.

## Main statements

* `Survey.sums_surveyClauses`: the survey after some clauses sums up their members.
* `Survey.accounted_surveyClauses`: a token is warned of as repeated when the survey takes it up as
  such, and not again.
-/

namespace Inflection

/-- Whether a member lists a token of a kind: it is not negated, and names the token or an alias
of it. -/
def Member.lists (scope : Scope) (kind name : String) (m : Member) : Bool :=
  !m.negated && scope.trueToken? m.name kind == some name

/-- Whether a member negates a token of a kind. -/
def Member.negates (scope : Scope) (kind : String) (m : Member) : Bool :=
  m.negated && scope.kindOf? m.name == some kind

namespace Lint

variable {p : Pattern} {scope : Scope}

/-! ## Members -/

/-- A member without a token behind it names none. -/
theorem token?_of_checkMember_none (hs : scope.WellFormed) {member : Member}
    (h : (checkMember p scope member).2 = none) : scope.token? member.name = none := by
  cases hn : scope.token? member.name with
  | none => rfl
  | some u =>
    cases hu : u.target? with
    | none =>
      rw [Setting.checkMember_of_plain hn hu] at h
      cases h
    | some target =>
      obtain ⟨base, hbase, -⟩ := hs.target hn hu
      rw [Setting.checkMember_of_alias hn hu, hbase] at h
      cases h

/-- The token behind a member is the true one. -/
theorem trueToken?_of_checkMember (hs : scope.WellFormed) {member : Member} {t : Token}
    (h : (checkMember p scope member).2 = some t) :
    scope.trueToken? member.name t.kind = some t.name := by
  cases hn : scope.token? member.name with
  | none =>
    rw [Setting.checkMember_of_unknown hn] at h
    cases h
  | some u =>
    cases hu : u.target? with
    | none =>
      rw [Setting.checkMember_of_plain hn hu] at h
      cases h
      exact hs.trueToken?_of_plain hn hu
    | some target =>
      rw [Setting.checkMember_of_alias hn hu] at h
      exact hs.trueToken?_of_alias hn hu h

theorem kindOf?_of_checkMember (hs : scope.WellFormed) {member : Member} {t : Token}
    (h : (checkMember p scope member).2 = some t) : scope.kindOf? member.name = some t.kind :=
  Scope.kindOf?_of_trueToken? (trueToken?_of_checkMember hs h)

theorem lists_of_kindOf?_none {m : Member} (h : scope.kindOf? m.name = none)
    (kind name : String) : m.lists scope kind name = false := by
  rw [Member.lists, Bool.and_eq_false_iff, beq_eq_false_iff_ne]
  refine .inr ?_
  intro htrue
  rw [Scope.kindOf?_of_trueToken? htrue] at h
  cases h

theorem negates_of_kindOf?_none {m : Member} (h : scope.kindOf? m.name = none) (kind : String) :
    m.negates scope kind = false := by
  rw [Member.negates, h]
  exact Bool.and_false _

/-- What a member with a token behind it lists. -/
theorem lists_of_checkMember (hs : scope.WellFormed) {member : Member} {t : Token}
    (h : (checkMember p scope member).2 = some t) (kind name : String) :
    member.lists scope kind name ↔ member.negated = false ∧ t.kind = kind ∧ t.name = name := by
  have htrue := trueToken?_of_checkMember hs h
  rw [Member.lists, Bool.and_eq_true, Bool.not_eq_true', beq_iff_eq]
  refine and_congr_right fun _ => ⟨?_, ?_⟩
  · intro hlists
    obtain rfl : t.kind = kind :=
      Option.some.inj ((kindOf?_of_checkMember hs h).symm.trans
        (Scope.kindOf?_of_trueToken? hlists))
    exact ⟨rfl, Option.some.inj (htrue.symm.trans hlists)⟩
  · rintro ⟨rfl, rfl⟩
    exact htrue

theorem negates_of_checkMember (hs : scope.WellFormed) {member : Member} {t : Token}
    (h : (checkMember p scope member).2 = some t) (kind : String) :
    member.negates scope kind ↔ member.negated ∧ t.kind = kind := by
  rw [Member.negates, kindOf?_of_checkMember hs h, Bool.and_eq_true, beq_iff_eq,
    Option.some.injEq]

theorem surveyMembers_of_none {member : Member} {members : List Member} {s : Survey}
    (h : (checkMember p scope member).2 = none) :
    surveyMembers p scope (member :: members) s =
      ((checkMember p scope member).1 ++ (surveyMembers p scope members s).1,
        (surveyMembers p scope members s).2) := by
  rw [surveyMembers]
  generalize checkMember p scope member = checked at h ⊢
  obtain ⟨warnings, token?⟩ := checked
  cases h
  rfl

theorem snd_surveyToken_of_ne {member : Member} {t : Token} {s : Survey}
    (h : ¬t.kind = s.kind?.getD t.kind) : (surveyToken p member t s).2 = s := by
  unfold surveyToken
  rw [if_neg h]

namespace Survey

/-! ## What a survey amounts to -/

/-- A survey that starts with a kind or without one sums up some members. -/
structure Sums (scope : Scope) (start? : Option String) (members : List Member) (s : Survey) :
    Prop where
  kind? : s.kind? = start?.or (members.findSome? fun m => scope.kindOf? m.name)
  listed : ∀ name, name ∈ s.listed ↔
    1 ≤ members.countP fun m => s.kind?.any (m.lists scope · name)
  repeated : ∀ name, name ∈ s.repeated ↔
    2 ≤ members.countP fun m => s.kind?.any (m.lists scope · name)
  negated : s.negated = members.any fun m => s.kind?.any (m.negates scope ·)

theorem sums_start (scope : Scope) (kind? : Option String) :
    Sums scope kind? [] ⟨kind?, [], [], false⟩ where
  kind? := (Option.or_none).symm
  listed _ := by simp
  repeated _ := by simp
  negated := rfl

variable {start? : Option String} {members : List Member} {s : Survey} {member : Member}
  {t : Token}

/-- A member without a token behind it adds nothing. -/
theorem Sums.concat_of_none (hs : scope.WellFormed) (h : Sums scope start? members s)
    (hm : (checkMember p scope member).2 = none) : Sums scope start? (members ++ [member]) s := by
  have hkindOf : scope.kindOf? member.name = none :=
    congrArg (Option.map Token.kind) (token?_of_checkMember_none hs hm)
  have hlists (name : String) : (s.kind?.any (member.lists scope · name)) = false := by
    cases s.kind? with
    | none => rfl
    | some kind => exact lists_of_kindOf?_none hkindOf kind name
  have hnegates : (s.kind?.any (member.negates scope ·)) = false := by
    cases s.kind? with
    | none => rfl
    | some kind => exact negates_of_kindOf?_none hkindOf kind
  refine ⟨?_, ?_, ?_, ?_⟩
  · rw [h.kind?, List.findSome?_append, List.findSome?_singleton, hkindOf, Option.or_none]
  · intro name
    rw [h.listed, List.countP_append, List.countP_singleton, hlists, if_neg Bool.false_ne_true,
      Nat.add_zero]
  · intro name
    rw [h.repeated, List.countP_append, List.countP_singleton, hlists, if_neg Bool.false_ne_true,
      Nat.add_zero]
  · rw [h.negated, List.any_append, List.any_cons, hnegates, List.any_nil, Bool.or_false,
      Bool.or_false]

/-- A survey may be read for the kind that the next token fixes: before, no member has a token. -/
theorem Sums.of_kind (h : Sums scope start? members s) (kind : String)
    (hkind : s.kind?.getD kind = kind) :
    (∀ name, name ∈ s.listed ↔ 1 ≤ members.countP (Member.lists scope kind name)) ∧
      (∀ name, name ∈ s.repeated ↔ 2 ≤ members.countP (Member.lists scope kind name)) ∧
      s.negated = members.any (Member.negates scope kind) := by
  obtain ⟨hkind?, hlisted, hrepeated, hnegated⟩ := h
  cases hk : s.kind? with
  | some k =>
    rw [hk] at hkind hlisted hrepeated hnegated
    obtain rfl : k = kind := hkind
    exact ⟨hlisted, hrepeated, hnegated⟩
  | none =>
    rw [hk] at hkind? hlisted hrepeated hnegated
    have hnone := List.findSome?_eq_none_iff.1 (Option.or_eq_none_iff.1 hkind?.symm).2
    have hcount (name : String) : members.countP (Member.lists scope kind name) = 0 := by
      rw [List.countP_eq_zero]
      intro m hm
      rw [lists_of_kindOf?_none (hnone m hm)]
      exact Bool.false_ne_true
    have hany : members.any (Member.negates scope kind) = false := by
      rw [List.any_eq_false]
      intro m hm
      rw [negates_of_kindOf?_none (hnone m hm)]
      exact Bool.false_ne_true
    have hzero (name : String) :
        (members.countP fun m => (none : Option String).any (m.lists scope · name)) = 0 := by
      rw [List.countP_eq_zero]
      exact fun _ _ => Bool.false_ne_true
    refine ⟨?_, ?_, ?_⟩
    · intro name
      rw [hlisted, hzero, hcount]
    · intro name
      rw [hrepeated, hzero, hcount]
    · rw [hnegated, hany, List.any_eq_false]
      exact fun _ _ => Bool.false_ne_true

/-! ### A token of the kind -/

theorem mem_listed_surveyToken (hkind : t.kind = s.kind?.getD t.kind) (name : String) :
    name ∈ (surveyToken p member t s).2.listed ↔
      name ∈ s.listed ∨ member.negated = false ∧ t.name = name := by
  unfold surveyToken
  rw [if_pos hkind]
  dsimp only
  split
  case isTrue hneg => simp [hneg]
  case isFalse hneg =>
    rw [Bool.not_eq_true] at hneg
    split
    case isTrue hnew => simp [hneg, eq_comm, or_comm]
    case isFalse hold =>
      have hmem : t.name ∈ s.listed := not_not.1 hold
      split <;> simp only [hneg, true_and] <;> exact ⟨.inl, (·.elim id (· ▸ hmem))⟩

theorem mem_repeated_surveyToken (hkind : t.kind = s.kind?.getD t.kind) (name : String) :
    name ∈ (surveyToken p member t s).2.repeated ↔
      name ∈ s.repeated ∨ member.negated = false ∧ t.name = name ∧ name ∈ s.listed := by
  unfold surveyToken
  rw [if_pos hkind]
  dsimp only
  split
  case isTrue hneg => simp [hneg]
  case isFalse hneg =>
    rw [Bool.not_eq_true] at hneg
    split
    case isTrue hnew =>
      refine ⟨.inl, (·.elim id ?_)⟩
      rintro ⟨-, rfl, hmem⟩
      exact absurd hmem hnew
    case isFalse hold =>
      have hmem : t.name ∈ s.listed := not_not.1 hold
      split
      case isTrue hnew =>
        rw [List.mem_cons, or_comm]
        refine or_congr_right ⟨?_, fun hall => hall.2.1.symm⟩
        rintro rfl
        exact ⟨hneg, rfl, hmem⟩
      case isFalse hrepeated =>
        refine ⟨.inl, (·.elim id ?_)⟩
        rintro ⟨-, rfl, -⟩
        exact not_not.1 hrepeated

theorem negated_surveyToken (hkind : t.kind = s.kind?.getD t.kind) :
    (surveyToken p member t s).2.negated = (s.negated || member.negated) := by
  unfold surveyToken
  rw [if_pos hkind]
  dsimp only
  split
  case isTrue hneg => simp [hneg]
  case isFalse hneg =>
    rw [Bool.not_eq_true] at hneg
    rw [hneg, Bool.or_false]
    split
    · rfl
    · split <;> rfl

/-- A survey of a known kind sums up members when its lists do so for that kind. -/
theorem sums_of_kind {kind : String} (hkind : s.kind? = some kind)
    (hstart : start?.or (members.findSome? fun m => scope.kindOf? m.name) = some kind)
    (hlisted : ∀ name, name ∈ s.listed ↔ 1 ≤ members.countP (Member.lists scope kind name))
    (hrepeated : ∀ name, name ∈ s.repeated ↔ 2 ≤ members.countP (Member.lists scope kind name))
    (hnegated : s.negated = members.any (Member.negates scope kind)) :
    Sums scope start? members s := by
  refine ⟨hkind.trans hstart.symm, ?_, ?_, ?_⟩
  · rw [hkind]
    exact hlisted
  · rw [hkind]
    exact hrepeated
  · rw [hkind]
    exact hnegated

/-- A token of another kind adds nothing. -/
theorem Sums.concat_of_ne (hs : scope.WellFormed) (h : Sums scope start? members s)
    (hm : (checkMember p scope member).2 = some t) (hkind : ¬t.kind = s.kind?.getD t.kind) :
    Sums scope start? (members ++ [member]) s := by
  cases hk : s.kind? with
  | none =>
    rw [hk] at hkind
    exact absurd rfl hkind
  | some kind =>
    rw [hk] at hkind
    have hkind : ¬t.kind = kind := hkind
    obtain ⟨hlisted, hrepeated, hnegated⟩ := h.of_kind kind (by rw [hk]; rfl)
    have hlists (name : String) : ¬member.lists scope kind name := by
      rw [lists_of_checkMember hs hm]
      exact fun hall => hkind hall.2.1
    have hnegates : ¬member.negates scope kind := by
      rw [negates_of_checkMember hs hm]
      exact fun hall => hkind hall.2
    refine sums_of_kind hk ?_ ?_ ?_ ?_
    · rw [List.findSome?_append, ← Option.or_assoc, ← h.kind?, hk, Option.some_or]
    · intro name
      rw [hlisted, List.countP_append, List.countP_singleton, if_neg (hlists name), Nat.add_zero]
    · intro name
      rw [hrepeated, List.countP_append, List.countP_singleton, if_neg (hlists name), Nat.add_zero]
    · rw [hnegated, List.any_append, List.any_cons, Bool.eq_false_iff.2 hnegates,
        List.any_nil, Bool.or_false, Bool.or_false]

/-- A token of the kind is counted. -/
theorem Sums.concat_of_eq (hs : scope.WellFormed) (h : Sums scope start? members s)
    (hm : (checkMember p scope member).2 = some t) (hkind : t.kind = s.kind?.getD t.kind) :
    Sums scope start? (members ++ [member]) (surveyToken p member t s).2 := by
  have hafter : (surveyToken p member t s).2.kind? = some t.kind := Setting.surveyToken_of_eq hkind
  obtain ⟨hlisted, hrepeated, hnegated⟩ := h.of_kind t.kind hkind.symm
  have hcount (name : String) : (members ++ [member]).countP (Member.lists scope t.kind name) =
      members.countP (Member.lists scope t.kind name) +
        if member.negated = false ∧ t.name = name then 1 else 0 := by
    rw [List.countP_append, List.countP_singleton]
    simp only [lists_of_checkMember hs hm, true_and]
  have hany : (members ++ [member]).any (Member.negates scope t.kind) =
      (members.any (Member.negates scope t.kind) || member.negated) := by
    have hnegates : member.negates scope t.kind = member.negated := by
      rw [Bool.eq_iff_iff, negates_of_checkMember hs hm]
      exact and_iff_left rfl
    rw [List.any_append, List.any_cons, hnegates, List.any_nil, Bool.or_false]
  have hstart : start?.or ((members ++ [member]).findSome? fun m => scope.kindOf? m.name) =
      some t.kind := by
    rw [List.findSome?_append, ← Option.or_assoc, ← h.kind?, List.findSome?_singleton,
      kindOf?_of_checkMember hs hm]
    cases hk : s.kind? with
    | none => rfl
    | some kind =>
      rw [hk] at hkind
      exact congrArg some hkind.symm
  refine sums_of_kind hafter hstart ?_ ?_ ?_
  · intro name
    rw [hcount, mem_listed_surveyToken hkind, hlisted]
    by_cases hnew : member.negated = false ∧ t.name = name
    · rw [if_pos hnew]
      exact ⟨fun _ => by omega, fun _ => .inr hnew⟩
    · rw [if_neg hnew, or_iff_left hnew, Nat.add_zero]
  · intro name
    rw [hcount, mem_repeated_surveyToken hkind, hrepeated, hlisted, ← and_assoc]
    by_cases hnew : member.negated = false ∧ t.name = name
    · rw [if_pos hnew, and_iff_right hnew]
      omega
    · rw [if_neg hnew, or_iff_left fun hall => hnew hall.1, Nat.add_zero]
  · rw [hany, negated_surveyToken hkind, hnegated]

/-! ## The run over members and clauses -/

theorem sums_surveyMembers (hs : scope.WellFormed) (rest : List Member)
    (h : Sums scope start? members s) :
    Sums scope start? (members ++ rest) (surveyMembers p scope rest s).2 := by
  induction rest generalizing members s with
  | nil =>
    rw [List.append_nil]
    exact h
  | cons member rest ih =>
    rw [List.append_cons]
    cases hm : (checkMember p scope member).2 with
    | none =>
      rw [surveyMembers_of_none hm]
      exact ih (h.concat_of_none hs hm)
    | some t =>
      rw [Setting.surveyMembers_of_some hm]
      by_cases hkind : t.kind = s.kind?.getD t.kind
      · exact ih (h.concat_of_eq hs hm hkind)
      · rw [snd_surveyToken_of_ne hkind]
        exact ih (h.concat_of_ne hs hm hkind)

/-- The survey after some clauses sums up the members that they are read for. -/
theorem sums_surveyClauses (hs : scope.WellFormed) (clauses : List Clause)
    (h : Sums scope start? members s) :
    Sums scope start? (members ++ clauses.flatMap Clause.members)
      (surveyClauses p scope clauses s).2 := by
  induction clauses generalizing members s with
  | nil =>
    rw [List.flatMap_nil, List.append_nil]
    exact h
  | cons clause clauses ih =>
    rw [List.flatMap_cons, ← List.append_assoc]
    rcases clause.groups_cases with ⟨group, hgroup⟩ | hne
    · rw [Setting.surveyClauses_of_group hgroup, Setting.members_of_group hgroup]
      exact ih (sums_surveyMembers hs group.members h)
    · rw [Setting.surveyClauses_of_ne hne, Setting.members_of_ne hne, List.append_nil]
      exact ih h

/-! ## Warnings of a survey -/

/-- Some warnings account for what becomes repeated between two surveys, and none of them tells of
an empty rendering.  A kind that is known stays. -/
structure Accounted (p : Pattern) (s : Survey) (r : List Warning × Survey) : Prop where
  kind? : ∀ kind, s.kind? = some kind → r.2.kind? = some kind
  subset : s.repeated ⊆ r.2.repeated
  repeated : ∀ source name, .repeatedToken source name ∈ r.1 ↔
    source = p.source ∧ name ∉ s.repeated ∧ name ∈ r.2.repeated
  mayRenderEmpty : ∀ source kind, .mayRenderEmpty source kind ∉ r.1

theorem Accounted.of_isStructural {ws : List Warning} (h : ∀ w ∈ ws, w.isStructural) :
    Accounted p s (ws, s) where
  kind? _ hkind := hkind
  subset := List.Subset.refl _
  repeated source name := by
    refine ⟨?_, fun hall => absurd hall.2.2 hall.2.1⟩
    intro hmem
    cases h _ hmem
  mayRenderEmpty source kind hmem := by
    cases h _ hmem

theorem Accounted.trans {ws ws' : List Warning} {s' s'' : Survey} (h : Accounted p s (ws, s'))
    (h' : Accounted p s' (ws', s'')) : Accounted p s (ws ++ ws', s'') where
  kind? kind hkind := h'.kind? kind (h.kind? kind hkind)
  subset := List.Subset.trans h.subset h'.subset
  repeated source name := by
    rw [List.mem_append, h.repeated, h'.repeated]
    refine ⟨?_, ?_⟩
    · rintro (⟨rfl, hold, hnew⟩ | ⟨rfl, hold, hnew⟩)
      · exact ⟨rfl, hold, h'.subset hnew⟩
      · exact ⟨rfl, fun hmem => hold (h.subset hmem), hnew⟩
    · rintro ⟨rfl, hold, hnew⟩
      by_cases hmem : name ∈ s'.repeated
      · exact .inl ⟨rfl, hold, hmem⟩
      · exact .inr ⟨rfl, hmem, hnew⟩
  mayRenderEmpty source kind hmem := by
    rcases List.mem_append.1 hmem with hmem | hmem
    · exact h.mayRenderEmpty source kind hmem
    · exact h'.mayRenderEmpty source kind hmem

theorem isStructural_of_mem_checkMember {w : Warning}
    (h : w ∈ (checkMember p scope member).1) : w.isStructural := by
  unfold checkMember at h
  split at h
  · rw [List.mem_singleton.1 h]
    rfl
  · split at h
    · cases h
    · rw [List.mem_singleton.1 h]
      rfl

theorem accounted_surveyToken : Accounted p s (surveyToken p member t s) := by
  by_cases hkind : t.kind = s.kind?.getD t.kind
  · refine ⟨?_, ?_, ?_, ?_⟩
    · intro kind hk
      rw [hk] at hkind
      rw [Setting.surveyToken_of_eq (by rw [hk]; exact hkind)]
      exact congrArg some hkind
    · intro name hmem
      exact (mem_repeated_surveyToken hkind name).2 (.inl hmem)
    · intro source name
      unfold surveyToken
      rw [if_pos hkind]
      dsimp only
      split
      · simp
      · split
        · simp
        · split
          case isTrue hnew =>
            rw [List.mem_singleton, List.mem_cons, Warning.repeatedToken.injEq]
            refine and_congr_right fun _ => ⟨?_, ?_⟩
            · rintro rfl
              exact ⟨hnew, .inl rfl⟩
            · rintro ⟨hold, rfl | hmem⟩
              · rfl
              · exact absurd hmem hold
          case isFalse => simp
    · intro source kind
      unfold surveyToken
      rw [if_pos hkind]
      dsimp only
      split
      · simp
      · split
        · simp
        · split <;> simp
  · have hpair : surveyToken p member t s =
        ([.misplacedToken p.source member.name t.kind (s.kind?.getD t.kind)], s) :=
      Prod.ext (Setting.surveyToken_of_ne hkind) (snd_surveyToken_of_ne hkind)
    rw [hpair]
    refine .of_isStructural ?_
    intro w hw
    rw [List.mem_singleton.1 hw]
    rfl

theorem accounted_surveyMembers (members : List Member) (s : Survey) :
    Accounted p s (surveyMembers p scope members s) := by
  induction members generalizing s with
  | nil => exact .of_isStructural fun _ h => (nomatch h)
  | cons member members ih =>
    have hmember : Accounted p s ((checkMember p scope member).1, s) :=
      .of_isStructural fun _ => isStructural_of_mem_checkMember
    cases hm : (checkMember p scope member).2 with
    | none =>
      rw [surveyMembers_of_none hm]
      exact hmember.trans (ih s)
    | some t =>
      rw [Setting.surveyMembers_of_some hm]
      exact (hmember.trans accounted_surveyToken).trans (ih _)

/-- A token is warned of as repeated when the survey takes it up as such, and not again. -/
theorem accounted_surveyClauses (clauses : List Clause) (s : Survey) :
    Accounted p s (surveyClauses p scope clauses s) := by
  induction clauses generalizing s with
  | nil => exact .of_isStructural fun _ h => (nomatch h)
  | cons clause clauses ih =>
    rcases clause.groups_cases with ⟨group, hgroup⟩ | hne
    · rw [Setting.surveyClauses_of_group hgroup]
      exact (accounted_surveyMembers group.members s).trans (ih _)
    · have hclause : Accounted p s ([.unknownToken p.source clause.tokens], s) := by
        refine .of_isStructural ?_
        intro w hw
        rw [List.mem_singleton.1 hw]
        rfl
      rw [Setting.surveyClauses_of_ne hne]
      exact hclause.trans (ih s)

end Survey

end Lint

end Inflection
