import Inflection.Proofs.Lint.Plain

/-!
# Tokens that are warned of as repeated

A token is warned of as repeated when its pattern lists it twice, be it in two clauses or in one.
A clause that lists a token hides the clauses after it from an option for that token, provided that
all its members are true tokens of the kind and none is negated.

## Main statements

* `Lint.isStructural_of_mem_checkPattern`: of complex patterns and unknown kinds nothing is
  repeated.
* `Setting.rendered_of_plain_lists`: what stands after a plain clause that lists the option has no
  influence.
* `repeatedToken_iff_listed_twice`: both, for every text.
-/

namespace Inflection

/-! ## Warnings -/

namespace Lint

variable {d : Lexicon} {p : Pattern} {w : Warning}

theorem isStructural_of_mem_checkComplex {store : StrictStore} {kinds : List String}
    (h : w ∈ checkComplex p store kinds) : w.isStructural := by
  unfold checkComplex at h
  split at h
  · obtain ⟨clause, -, hw⟩ := List.mem_flatMap.1 h
    unfold checkComplexClause at hw
    split at hw
    · obtain ⟨⟨kind, group⟩, -, hw⟩ := List.mem_flatMap.1 hw
      obtain ⟨member, -, hw⟩ := List.mem_flatMap.1 hw
      exact Survey.isStructural_of_mem_checkMember hw
    · rw [List.mem_singleton.1 hw]
      rfl
  · obtain ⟨kind, -, rfl⟩ := List.mem_map.1 h
    rfl

/-- What is warned of in a pattern that is not read clause by clause in one scope. -/
theorem isStructural_of_mem_checkPattern (hscope : p.scope? d = none)
    (h : w ∈ checkPattern d p) : w.isStructural := by
  unfold checkPattern at h
  unfold Pattern.scope? at hscope
  cases htarget : p.target with
  | loose =>
    rw [htarget] at hscope
    cases hscope
  | named kind =>
    rw [htarget] at h hscope
    dsimp only at h hscope
    split at hscope
    case isTrue => cases hscope
    case isFalse hkind =>
      rw [if_neg hkind] at h
      rw [List.mem_singleton.1 h]
      rfl
  | complex kinds =>
    rw [htarget] at h
    exact isStructural_of_mem_checkComplex h
  | invalid text =>
    rw [htarget] at h
    rw [List.mem_singleton.1 h]
    rfl

/-- A token of a text is warned of as repeated exactly when a pattern lists it twice or more. -/
theorem repeatedToken_mem_lint_iff (hd : d.Built) {text source name : String} :
    .repeatedToken source name ∈ lint text d ↔
      ∃ p ∈ patterns text, p.source = source ∧ ∃ scope kind, p.scope? d = some scope ∧
        p.kind? scope = some kind ∧ 2 ≤ p.members.countP (Member.lists scope kind name) := by
  rw [lint, List.mem_flatMap]
  refine exists_congr fun p => and_congr_right fun _ => ?_
  cases hscope : p.scope? d with
  | none =>
    refine ⟨?_, ?_⟩
    · intro h
      cases isStructural_of_mem_checkPattern hscope h
    · rintro ⟨-, scope, kind, hsome, -⟩
      cases hsome
  | some scope =>
    have hs : scope.WellFormed := Pattern.wellFormed_of_scope? hd hscope
    rw [Setting.checkPattern_of_scope? hscope, repeatedToken_mem_checkSingle_iff hs]
    refine ⟨?_, ?_⟩
    · rintro ⟨rfl, kind, hkind, htwice⟩
      exact ⟨rfl, scope, kind, rfl, hkind, htwice⟩
    · rintro ⟨rfl, scope', kind, hsome, hkind, htwice⟩
      obtain rfl : scope = scope' := Option.some.inj hsome
      exact ⟨rfl, kind, hkind, htwice⟩

end Lint

/-! ## Hidden clauses -/

namespace Setting

variable {c : Setting} {scope : Scope} {p : Pattern} {kind name : String}

theorem readings_append (before after : List Clause) :
    c.readings scope (before ++ after) = c.readings scope before ++ c.readings scope after :=
  List.filterMap_append

theorem firstKind?_append (rs rs' : List Reading) :
    Reading.firstKind? (rs ++ rs') = (Reading.firstKind? rs).or (Reading.firstKind? rs') := by
  rw [Reading.firstKind?, List.flatMap_append, List.head?_append, Option.map_or]
  rfl

/-- After a clause that applies to the option the choice is made. -/
theorem chosen?_append_of_accepts (before after : List Reading) {r : Reading}
    (hoption : c.option? scope kind = some name) (h : r.accepts name) :
    c.chosen? scope kind (before ++ r :: after) =
      accepted? scope name (before ++ [r]) := by
  have haccepted : accepted? scope name (before ++ r :: after) =
      accepted? scope name (before ++ [r]) := by
    rw [accepted?, accepted?, List.find?_append, List.find?_append, List.find?_cons_of_pos h,
      List.find?_cons_of_pos h]
  have hsome : ∃ s, accepted? scope name (before ++ [r]) = some s := by
    rw [accepted?, List.find?_append, List.find?_cons_of_pos h]
    cases before.find? (·.accepts name) with
    | none => exact ⟨_, rfl⟩
    | some r' => exact ⟨_, rfl⟩
  obtain ⟨s, hs⟩ := hsome
  rw [chosen?, hoption, Option.bind_some, haccepted, hs, Option.some_or]

/-- What stands after a plain clause that lists the option has no influence. -/
theorem choice_of_plain_lists (hs : scope.WellFormed) {before after : List Clause}
    {clause : Clause} (hplain : clause.Plain scope kind)
    (hlists : clause.lists scope kind name)
    (hkind : scope.kind?.or (Reading.firstKind? (c.readings scope (before ++ [clause]))) =
      some kind)
    (hoption : c.option? scope kind = some name)
    (hclauses : p.clauses = before ++ clause :: after) :
    c.choice scope p = (accepted? scope name
      ((c.readings scope (before ++ [clause])).filter (·.isLive kind))).getD p.freeText := by
  have hreading : c.readings scope [clause] = [c.reading scope clause] :=
    readings_of_plain (List.forall_mem_singleton.2 hplain)
  have hlive : (c.reading scope clause).isLive kind := isLive_of_plain hs hplain
  have haccepts : (c.reading scope clause).accepts name := by
    rw [accepts_of_plain hs hplain]
    exact hlists
  have hsplit : c.readings scope p.clauses =
      c.readings scope (before ++ [clause]) ++ c.readings scope after := by
    rw [hclauses, ← readings_append, List.append_assoc, List.singleton_append]
  have hfirst : scope.kind?.or (Reading.firstKind? (c.readings scope p.clauses)) = some kind := by
    rw [hsplit, firstKind?_append, ← Option.or_assoc, hkind, Option.some_or]
  unfold choice
  dsimp only
  rw [hfirst, Option.bind_some, hsplit, List.filter_append, readings_append, List.filter_append,
    hreading, List.filter_cons_of_pos hlive, List.filter_nil, List.append_assoc,
    List.singleton_append, chosen?_append_of_accepts _ _ hoption haccepts]

theorem rendered_of_plain_lists (hd : c.lexicon.Built) (hscope : p.scope? c.lexicon = some scope)
    {before after : List Clause} {clause : Clause} (hplain : clause.Plain scope kind)
    (hlists : clause.lists scope kind name)
    (hkind : scope.kind?.or (Reading.firstKind? (c.readings scope (before ++ [clause]))) =
      some kind)
    (hoption : c.option? scope kind = some name)
    (hclauses : p.clauses = before ++ clause :: after) :
    c.rendered p = c.rendered { p with clauses := before ++ [clause] } := by
  have hs : scope.WellFormed := Pattern.wellFormed_of_scope? hd hscope
  have hscope' : Pattern.scope? c.lexicon { p with clauses := before ++ [clause] } = some scope :=
    hscope
  rw [rendered_of_scope? hscope, rendered_of_scope? hscope', value_renderSingle,
    value_renderSingle, choice_of_plain_lists hs hplain hlists hkind hoption hclauses,
    choice_of_plain_lists hs hplain hlists hkind hoption
      (p := { p with clauses := before ++ [clause] }) rfl]
  rfl

end Setting

/-! ## Texts -/

/-- A token is warned of as repeated exactly when a pattern lists it twice or more, in two clauses
or in one.  A clause that lists the token hides those after it from an option for the token if its
members are true tokens of the kind that is read and none is negated. -/
theorem repeatedToken_iff_listed_twice {d : Lexicon} (hd : d.Reachable) (text : String) :
    (∀ source name, .repeatedToken source name ∈ lint text d ↔
      ∃ p ∈ patterns text, p.source = source ∧ ∃ scope kind, p.scope? d = some scope ∧
        p.kind? scope = some kind ∧ 2 ≤ p.members.countP (Member.lists scope kind name)) ∧
    ∀ options switches,
      let c : Setting := ⟨d, options, switches⟩
      ∀ (p : Pattern) (scope : Scope) (kind name : String) (before after : List Clause)
        (clause : Clause), p.scope? d = some scope → p.clauses = before ++ clause :: after →
        clause.Plain scope kind → clause.lists scope kind name →
        scope.kind?.or (Reading.firstKind? (c.readings scope (before ++ [clause]))) = some kind →
        c.option? scope kind = some name →
        c.rendered p = c.rendered { p with clauses := before ++ [clause] } := by
  refine ⟨fun source name => Lint.repeatedToken_mem_lint_iff hd.toBuilt, ?_⟩
  intro options switches c p scope kind name before after clause hscope hclauses hplain hlists
    hkind hoption
  exact Setting.rendered_of_plain_lists (c := c) hd.toBuilt hscope hplain hlists hkind hoption
    hclauses

/-- The warning does not tell of two clauses: here one clause alone lists the token, twice.  Nor
does the first clause always hide the second: with its token negated beside it, it is passed over
for that token.  A plain first clause hides the second even where that lists the token by an alias
and would apply if it stood alone. -/
theorem repeatedToken_iff_listed_twice_once :
    let d : Lexicon := ⟨"en", (LooseStore.empty "en").attemptAll
      [.addToken "f" "gender" "female", .addToken "m" "gender" "male",
        .addAlias "lady" "f" (some "gender")], .empty "en"⟩
    let options : Options := Options.empty.insertIfValid "gender" "f"
    let c : Setting := ⟨d, options, Switches.standard.set .aliasedPatterns true⟩
    let first : Clause := .choice [⟨[⟨"f", false⟩]⟩] (.text "a")
    let second : Clause := .choice [⟨[⟨"lady", false⟩]⟩] (.text "b")
    let r : Pattern := ⟨"@{f:a|lady:b|All}", .loose, [first, second], some "All"⟩
    d.Reachable ∧ .repeatedToken "@{f,f:x|All}" "f" ∈ lint "@{f,f:x|All}" d ∧
      (∀ p ∈ patterns "@{f,f:x|All}", p.clauses.length = 1) ∧
      .repeatedToken "@{f,!f:a|f:b|All}" "f" ∈ lint "@{f,!f:a|f:b|All}" d ∧
      interpolate "@{f,!f:a|f:b|All}" d Switches.standard options = .ok "b" ∧
      patterns r.source = [r] ∧ .repeatedToken r.source "f" ∈ lint r.source d ∧
      c.rendered { r with clauses := [second] } = "b" ∧
      c.rendered r = c.rendered { r with clauses := [first] } := by
  intro d options c first second r
  have hd : d.Reachable := .built ⟨⟨"en", _, rfl⟩, ⟨"en", [], rfl⟩⟩
  have hlisted (text : String) (p : Pattern) (hp : p ∈ patterns text)
      (hscope : p.scope? d = some (.loose d.loose))
      (hkind : p.kind? (.loose d.loose) = some "gender")
      (htwice : 2 ≤ p.members.countP (Member.lists (.loose d.loose) "gender" "f")) :
      .repeatedToken p.source "f" ∈ lint text d :=
    ((repeatedToken_iff_listed_twice hd text).1 p.source "f").2
      ⟨p, hp, rfl, .loose d.loose, "gender", hscope, hkind, htwice⟩
  let p : Pattern := ⟨"@{f,f:x|All}", .loose,
    [.choice [⟨[⟨"f", false⟩, ⟨"f", false⟩]⟩] (.text "x")], some "All"⟩
  let q : Pattern := ⟨"@{f,!f:a|f:b|All}", .loose,
    [.choice [⟨[⟨"f", false⟩, ⟨"f", true⟩]⟩] (.text "a"),
      .choice [⟨[⟨"f", false⟩]⟩] (.text "b")], some "All"⟩
  have hp : p ∈ patterns "@{f,f:x|All}" := by decide +kernel
  have hq : q ∈ patterns "@{f,!f:a|f:b|All}" := by decide +kernel
  have hr : patterns r.source = [r] := by decide +kernel
  have htrue : Scope.IsTrue (.loose d.loose) "gender" "f" :=
    ⟨⟨"f", "gender", "female", none⟩, by decide +kernel, rfl, rfl⟩
  have hplain : first.Plain (.loose d.loose) "gender" := by
    refine ⟨⟨_, rfl⟩, List.cons_ne_nil _ _, ?_, ?_⟩
    · exact List.forall_mem_singleton.2 htrue
    · exact List.forall_mem_singleton.2 rfl
  have hhidden : c.rendered r = c.rendered { r with clauses := [first] } :=
    (repeatedToken_iff_listed_twice hd r.source).2 options c.switches r (.loose d.loose) "gender"
      "f" [] [second] first rfl rfl hplain (by decide +kernel) (by decide +kernel)
      (by decide +kernel)
  refine ⟨hd, hlisted _ p hp rfl ?_ ?_, ?_, hlisted _ q hq rfl ?_ ?_, ?_, hr,
    hlisted _ r (hr ▸ List.mem_singleton_self r) rfl ?_ ?_, ?_, hhidden⟩ <;> decide +kernel

end Inflection
