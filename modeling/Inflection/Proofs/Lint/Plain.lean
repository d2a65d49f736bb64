import Inflection.Proofs.Lint.Warned
import Inflection.Proofs.Render.Choice
import Mathlib.Data.List.Find

/-!
# Members and the choice of a clause

The choice of a clause is made by the tokens that its group mentions under the switches in force,
warnings by the members themselves.  Members that name true tokens mention just these, so among
plain clauses the choice can be said without the mentions.

## Main statements

* `Setting.firstKind?_readings`: the kind of a pattern is the one that lint infers, if every member
  that names a token also mentions one.
* `Setting.choice_of_plain`: the choice among plain clauses.
-/

namespace Inflection

namespace Clause

/-- Whether a clause lists a token of a kind. -/
def lists (scope : Scope) (kind name : String) (clause : Clause) : Bool :=
  clause.members.any (·.lists scope kind name)

/-- A clause of one group, whose members are true tokens of a kind and not negated. -/
structure Plain (scope : Scope) (kind : String) (clause : Clause) : Prop where
  group : ∃ group, clause.groups = [group]
  nonempty : clause.members ≠ []
  isTrue : ∀ m ∈ clause.members, scope.IsTrue kind m.name
  positive : ∀ m ∈ clause.members, m.negated = false

end Clause

namespace Setting

variable {c : Setting} {scope : Scope} {p : Pattern} {kind name : String}

/-! ## Patterns read in one scope -/

theorem checkPattern_of_scope? {d : Lexicon} (hscope : p.scope? d = some scope) :
    Lint.checkPattern d p = Lint.checkSingle p scope := by
  unfold Lint.checkPattern
  rcases Pattern.scope?_eq_some_iff.1 hscope with ⟨htarget, rfl⟩ | ⟨kind, htarget, hhas, rfl⟩
  · rw [htarget]
  · rw [htarget]
    dsimp only
    rw [if_pos hhas]

theorem reads_of_kind? {d : Lexicon} (hscope : p.scope? d = some scope)
    (hkind : p.kind? scope = some kind) : p.reads d = [(scope, kind)] := by
  unfold Pattern.reads
  rcases Pattern.scope?_eq_some_iff.1 hscope with ⟨htarget, rfl⟩ | ⟨kind', htarget, -, rfl⟩
  · rw [htarget]
    have hmembers : (p.clauses.flatMap Clause.members).findSome?
        (fun m => (Scope.loose d.loose).kindOf? m.name) = some kind := hkind
    dsimp only
    rw [readsFrom, Option.none_or, hmembers]
    rfl
  · rw [htarget]
    obtain rfl : kind' = kind := Option.some.inj hkind
    rfl

/-! ## Members and mentions -/

/-- What is read of a clause with one group. -/
def reading (c : Setting) (scope : Scope) (clause : Clause) : Reading :=
  ⟨c.mentions scope ⟨clause.members⟩, clause.value⟩

theorem trueToken?_of_mentioned? (hs : scope.WellFormed) {t : Token}
    (h : c.mentioned? scope name = some t) : scope.trueToken? name t.kind = some t.name :=
  trueToken?_of_lookUp hs ((lookUp_eq name).trans h)

theorem mentioned?_of_isTrue (hs : scope.WellFormed) (h : scope.IsTrue kind name) :
    ∃ t, c.mentioned? scope name = some t ∧ t.kind = kind ∧ t.name = name := by
  obtain ⟨t, ht, htrue, hkind⟩ := h
  exact ⟨t, (lookUp_eq name).symm.trans (lookUp_of_plain c ht htrue), hkind, hs.name_eq ht⟩

/-- If patterns may mention aliases, a member that names a token mentions one. -/
theorem kind_mentioned?_of_aliased (hs : scope.WellFormed) (hc : c.switches.aliasedPatterns)
    (name : String) : (c.mentioned? scope name).map Token.kind = scope.kindOf? name := by
  cases hn : scope.token? name with
  | none =>
    rw [mentioned?, Scope.kindOf?, hn]
    rfl
  | some t =>
    have hsome : ∃ u, c.mentioned? scope name = some u := by
      rw [← lookUp_eq]
      cases ht : t.target? with
      | none => exact ⟨t, lookUp_of_plain c hn ht⟩
      | some target =>
        obtain ⟨base, hbase, -⟩ := hs.target hn ht
        exact ⟨base, by rw [lookUp_of_alias c hn ht, if_pos hc, hbase]⟩
    obtain ⟨u, hu⟩ := hsome
    rw [hu, Scope.kindOf?_of_trueToken? (trueToken?_of_mentioned? hs hu)]
    rfl

theorem mem_mentions_iff {g : Group} {m : Mention} :
    m ∈ c.mentions scope g ↔
      ∃ member ∈ g.members, member.negated = m.negated ∧
        c.mentioned? scope member.name = some m.token := by
  rw [mentions, List.mem_filterMap]
  refine exists_congr fun member => and_congr_right fun _ => ?_
  rw [Option.map_eq_some_iff]
  refine ⟨?_, ?_⟩
  · rintro ⟨t, ht, rfl⟩
    exact ⟨rfl, ht⟩
  · rintro ⟨hneg, ht⟩
    exact ⟨m.token, ht, by rw [hneg]⟩

theorem exists_of_mem_readings {clauses : List Clause} {r : Reading}
    (h : r ∈ c.readings scope clauses) : ∃ clause ∈ clauses, r = c.reading scope clause := by
  obtain ⟨clause, hclause, hr⟩ := List.mem_filterMap.1 h
  refine ⟨clause, hclause, ?_⟩
  split at hr
  case h_1 group hgroup =>
    rw [reading, members_of_group hgroup]
    exact (Option.some.inj hr).symm
  case h_2 => cases hr

/-- The kind of the clauses is that of the first member that names a token, if each of these
mentions one. -/
theorem firstKind?_readings (clauses : List Clause)
    (h : ∀ m ∈ clauses.flatMap Clause.members,
      (c.mentioned? scope m.name).map Token.kind = scope.kindOf? m.name) :
    Reading.firstKind? (c.readings scope clauses) =
      (clauses.flatMap Clause.members).findSome? fun m => scope.kindOf? m.name := by
  induction clauses with
  | nil => rfl
  | cons clause clauses ih =>
    rw [List.flatMap_cons, List.forall_mem_append] at h
    rw [List.flatMap_cons, List.findSome?_append, ← ih h.2]
    rcases clause.groups_cases with ⟨group, hgroup⟩ | hne
    · have hmembers := members_of_group hgroup
      have hhead : (c.mentions scope group).head?.map (·.token.kind) =
          group.members.findSome? fun m => scope.kindOf? m.name := by
        rw [mentions, ← List.head?_map, List.map_filterMap, ← List.head?_filterMap]
        refine congrArg List.head? (List.filterMap_congr ?_)
        intro m hm
        rw [← h.1 m (hmembers ▸ hm), Option.map_map]
        rfl
      rw [readings_cons_of_group hgroup, Reading.firstKind?_cons, hmembers, hhead]
    · rw [readings_cons_of_ne hne, members_of_ne hne]
      rfl

/-! ## Plain clauses -/

variable {clause : Clause} {clauses : List Clause}

theorem readings_of_plain (h : ∀ clause ∈ clauses, clause.Plain scope kind) :
    c.readings scope clauses = clauses.map (c.reading scope) := by
  induction clauses with
  | nil => rfl
  | cons clause clauses ih =>
    obtain ⟨hclause, hclauses⟩ := List.forall_mem_cons.1 h
    obtain ⟨group, hgroup⟩ := hclause.group
    have hreading : c.reading scope clause = ⟨c.mentions scope group, clause.value⟩ := by
      rw [reading, members_of_group hgroup]
    rw [readings_cons_of_group hgroup, List.map_cons, ih hclauses, hreading]

/-- A plain clause negates nothing and mentions tokens of the kind alone. -/
theorem mentions_of_plain (hs : scope.WellFormed) (h : clause.Plain scope kind) {m : Mention}
    (hm : m ∈ (c.reading scope clause).mentions) : m.negated = false ∧ m.token.kind = kind := by
  obtain ⟨member, hmember, hneg, hmentioned⟩ := mem_mentions_iff.1 hm
  obtain ⟨t, ht, hkind, -⟩ := mentioned?_of_isTrue (c := c) hs (h.isTrue member hmember)
  obtain rfl : t = m.token := Option.some.inj (ht.symm.trans hmentioned)
  exact ⟨hneg.symm.trans (h.positive member hmember), hkind⟩

theorem isLive_of_plain (hs : scope.WellFormed) (h : clause.Plain scope kind) :
    (c.reading scope clause).isLive kind := by
  obtain ⟨member, hmember⟩ := List.exists_mem_of_ne_nil _ h.nonempty
  obtain ⟨t, ht, -⟩ := mentioned?_of_isTrue (c := c) hs (h.isTrue member hmember)
  have hmem : (⟨t, member.negated⟩ : Mention) ∈ (c.reading scope clause).mentions :=
    mem_mentions_iff.2 ⟨member, hmember, rfl, ht⟩
  rw [Reading.isLive, Mention.isLive, Bool.and_eq_true, Bool.not_eq_true',
    List.isEmpty_eq_false_iff, List.all_eq_true]
  refine ⟨List.ne_nil_of_mem hmem, ?_⟩
  intro m hm
  exact beq_iff_eq.2 (mentions_of_plain hs h hm).2

/-- A clause without negated members applies to the tokens that it lists. -/
theorem accepts_eq_lists {r : Reading} (h : ∀ m ∈ r.mentions, m.negated = false) (name : String) :
    r.accepts name = r.lists name := by
  have hnegatives : Mention.negatives r.mentions = [] := by
    rw [Mention.negatives, List.map_eq_nil_iff, List.filter_eq_nil_iff]
    intro m hm
    rw [h m hm]
    exact Bool.false_ne_true
  rw [Reading.accepts, Mention.accepts, hnegatives]
  rfl

theorem lists_reading_iff {r : Reading} :
    r.lists name ↔ ∃ m ∈ r.mentions, m.negated = false ∧ m.token.name = name := by
  rw [Reading.lists, List.contains_iff_mem, Mention.positives, List.mem_map]
  refine exists_congr fun m => ?_
  rw [List.mem_filter, Bool.not_eq_true', and_assoc]

theorem lists_of_plain (hs : scope.WellFormed) (h : clause.Plain scope kind) (name : String) :
    (c.reading scope clause).lists name = clause.lists scope kind name := by
  rw [Bool.eq_iff_iff, lists_reading_iff, Clause.lists, List.any_eq_true]
  refine ⟨?_, ?_⟩
  · rintro ⟨m, hm, hneg, rfl⟩
    have hkind := (mentions_of_plain hs h hm).2
    obtain ⟨member, hmember, hneg', hmentioned⟩ := mem_mentions_iff.1 hm
    refine ⟨member, hmember, ?_⟩
    rw [Member.lists, hneg', hneg, ← hkind, trueToken?_of_mentioned? hs hmentioned]
    exact beq_self_eq_true _
  · rintro ⟨member, hmember, hlists⟩
    rw [Member.lists, Bool.and_eq_true, Bool.not_eq_true', beq_iff_eq] at hlists
    have htrue := h.isTrue member hmember
    have hname : member.name = name :=
      Option.some.inj ((hs.trueToken?_of_isTrue htrue).symm.trans hlists.2)
    obtain ⟨t, ht, -, htname⟩ := mentioned?_of_isTrue (c := c) hs htrue
    exact ⟨⟨t, member.negated⟩, mem_mentions_iff.2 ⟨member, hmember, rfl, ht⟩, hlists.1,
      htname.trans hname⟩

theorem accepts_of_plain (hs : scope.WellFormed) (h : clause.Plain scope kind) (name : String) :
    (c.reading scope clause).accepts name = clause.lists scope kind name := by
  rw [accepts_eq_lists fun m hm => (mentions_of_plain hs h hm).1, lists_of_plain hs h]

/-- What the first of some plain clauses that lists a token shows for it. -/
def listed? (scope : Scope) (kind name : String) (clauses : List Clause) : Option String :=
  (clauses.find? (Clause.lists scope kind name)).map
    (·.value.shownFor (scope.description? name))

theorem accepted?_of_plain (hs : scope.WellFormed)
    (h : ∀ clause ∈ clauses, clause.Plain scope kind) (option : String) :
    accepted? scope option (clauses.map (c.reading scope)) =
      listed? scope kind option clauses := by
  have hfind : clauses.find? ((·.accepts option) ∘ c.reading scope) =
      clauses.find? (Clause.lists scope kind option) :=
    List.find?_congr fun clause hc => accepts_of_plain hs (h clause hc) option
  rw [accepted?, List.find?_map, Option.map_map, hfind]
  rfl

theorem excluded?_of_plain (hs : scope.WellFormed)
    (h : ∀ clause ∈ clauses, clause.Plain scope kind) :
    c.excluded? scope kind (clauses.map (c.reading scope)) =
      if c.switches.excludedDefaults then
        (scope.default? kind).bind (listed? scope kind · clauses)
      else none := by
  have hfind (name : String) : clauses.find? ((·.lists name) ∘ c.reading scope) =
      clauses.find? (Clause.lists scope kind name) :=
    List.find?_congr fun clause hc => lists_of_plain hs (h clause hc) name
  unfold excluded?
  simp only [List.find?_map, Option.map_map, hfind]
  rfl

/-- Among plain clauses the first that lists the option is chosen, else, if excluded defaults stand
in, the first that lists the default. -/
theorem choice_of_plain (hs : scope.WellFormed)
    (h : ∀ clause ∈ p.clauses, clause.Plain scope kind) (hkind : p.kind? scope = some kind) :
    c.choice scope p =
      ((c.option? scope kind).bind fun option =>
        (listed? scope kind option p.clauses).or
          (if c.switches.excludedDefaults then
            (scope.default? kind).bind (listed? scope kind · p.clauses)
          else none)).getD p.freeText := by
  have hmentioned : ∀ m ∈ p.clauses.flatMap Clause.members,
      (c.mentioned? scope m.name).map Token.kind = scope.kindOf? m.name := by
    intro m hm
    obtain ⟨clause, hc, hm⟩ := List.mem_flatMap.1 hm
    obtain ⟨t, ht, -⟩ := mentioned?_of_isTrue (c := c) hs ((h clause hc).isTrue m hm)
    rw [ht, Scope.kindOf?_of_trueToken? (trueToken?_of_mentioned? hs ht)]
    rfl
  have hfirst : scope.kind?.or (Reading.firstKind? (c.readings scope p.clauses)) = some kind := by
    rw [firstKind?_readings p.clauses hmentioned]
    exact hkind
  have hlive : (c.readings scope p.clauses).filter (·.isLive kind) =
      p.clauses.map (c.reading scope) := by
    rw [readings_of_plain h, List.filter_eq_self]
    intro r hr
    obtain ⟨clause, hc, rfl⟩ := List.mem_map.1 hr
    exact isLive_of_plain hs (h clause hc)
  unfold choice
  dsimp only
  rw [hfirst, Option.bind_some, hlive, chosen?, excluded?_of_plain hs h]
  simp only [accepted?_of_plain hs h]

end Setting

end Inflection
