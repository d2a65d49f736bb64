import Inflection.Proofs.Pattern.RoundTrip
import Inflection.Proofs.Render.Outcome

/-!
# Aliases in patterns

A member that names an alias stands for the true token behind it where patterns may mention
aliases, and for nothing where they may not.  Either way the alias could be written out of the
pattern: the member may name the true token instead, or else some name that no store holds.

Members are renamed by the place of their group, since each group of a complex pattern is read in a
kind of its own.

## Main statements

* `Setting.outcome?_rename`: clauses give the same if their members mention the same tokens under
  other names.
* `Setting.mentioned?_trueName`, `Setting.mentioned?_unknown`: what stands in for an alias mentions
  what the alias does.
* `interpolate_replaceAliases`: aliases are transparent or invisible.
-/

namespace Inflection

/-! ## Renaming -/

/-- The member with its name replaced. -/
def Member.rename (f : String → String) (m : Member) : Member := { m with name := f m.name }

/-- The group with the names of its members replaced. -/
def Group.rename (f : String → String) (g : Group) : Group := ⟨g.members.map (·.rename f)⟩

/-- Groups with the names of their members replaced by the place of the group. -/
def Group.renameAll (f : Nat → String → String) (gs : List Group) : List Group :=
  gs.mapIdx fun place g => g.rename (f place)

/-- The clause with the names of its members replaced. -/
def Clause.rename (f : Nat → String → String) : Clause → Clause
  | bare s => bare s
  | choice gs v => choice (Group.renameAll f gs) v

/-- The pattern with the names of its members replaced. -/
def Pattern.rename (f : Nat → String → String) (p : Pattern) : Pattern :=
  { p with clauses := p.clauses.map (·.rename f) }

theorem Group.renameAll_cons (f : Nat → String → String) (g : Group) (gs : List Group) :
    renameAll f (g :: gs) = g.rename (f 0) :: renameAll (fun place => f (place + 1)) gs :=
  List.mapIdx_cons

@[simp] theorem Group.length_renameAll (f : Nat → String → String) (gs : List Group) :
    (renameAll f gs).length = gs.length :=
  List.length_mapIdx

theorem Group.exists_of_mem_renameAll {f : Nat → String → String} {gs : List Group} {g : Group}
    (h : g ∈ renameAll f gs) : ∃ place, ∃ g' ∈ gs, g = g'.rename (f place) := by
  obtain ⟨place, hplace, rfl⟩ := List.mem_mapIdx.1 h
  exact ⟨place, _, List.getElem_mem hplace, rfl⟩

@[simp] theorem Clause.groups_rename (f : Nat → String → String) (clause : Clause) :
    (clause.rename f).groups = Group.renameAll f clause.groups := by
  cases clause <;> rfl

@[simp] theorem Clause.value_rename (f : Nat → String → String) (clause : Clause) :
    (clause.rename f).value = clause.value := by
  cases clause <;> rfl

/-- A pattern is read back under other names if each of its members is. -/
theorem Pattern.WellFormed.rename {p : Pattern} (h : p.WellFormed) {f : Nat → String → String}
    (hf : ∀ place (m : Member), m.WellFormed → (m.rename (f place)).WellFormed) :
    (p.rename f).WellFormed where
  target := h.target
  clauses clause hclause := by
    obtain ⟨clause, hmem, rfl⟩ := List.mem_map.1 hclause
    have hclause := h.clauses clause hmem
    cases clause with
    | bare s => exact hclause
    | choice gs v =>
      obtain ⟨hne, hgroups, hvalue⟩ := hclause
      refine ⟨?_, ?_, hvalue⟩
      · rw [← List.length_pos_iff, Group.length_renameAll, List.length_pos_iff]
        exact hne
      · intro g hg
        obtain ⟨place, g, hmem, rfl⟩ := Group.exists_of_mem_renameAll hg
        have hg := hgroups g hmem
        refine ⟨fun hnil => hg.nonempty (List.map_eq_nil_iff.1 hnil), ?_⟩
        rw [Group.rename, List.forall_mem_map]
        exact fun m hm => hf place m (hg.members m hm)
  freeText := h.freeText
  last hnone s hlast := by
    rw [Pattern.rename, List.getLast?_map] at hlast
    obtain ⟨clause, hclause, hbare⟩ := Option.map_eq_some_iff.1 hlast
    cases clause with
    | bare s' => exact h.last hnone s' hclause
    | choice gs v => cases hbare
  nonempty := h.nonempty.imp_left fun hne hnil => hne (List.map_eq_nil_iff.1 hnil)

namespace Setting

variable {c : Setting} {scope : Scope}

theorem mentions_rename {f : String → String}
    (h : ∀ name, c.mentioned? scope (f name) = c.mentioned? scope name) (g : Group) :
    c.mentions scope (g.rename f) = c.mentions scope g := by
  rw [mentions, Group.rename, List.filterMap_map]
  refine List.filterMap_congr ?_
  intro m _
  rw [Function.comp_apply, Member.rename, h]

theorem readings_rename {f : Nat → String → String}
    (h : ∀ name, c.mentioned? scope (f 0 name) = c.mentioned? scope name)
    (clauses : List Clause) :
    c.readings scope (clauses.map (·.rename f)) = c.readings scope clauses := by
  rw [readings, List.filterMap_map]
  refine List.filterMap_congr ?_
  intro clause _
  rw [Function.comp_apply, Clause.groups_rename, Clause.value_rename]
  rcases clause.groups with _ | ⟨g, _ | ⟨g', gs⟩⟩
  case nil => rfl
  case cons.nil =>
    exact congrArg (fun ms => some (Reading.mk ms clause.value)) (mentions_rename h g)
  case cons.cons => rw [Group.renameAll_cons, Group.renameAll_cons]

/-- The groups of a clause of a complex pattern have the same tokens under other names. -/
theorem mapM_tokens?_rename {kinds : List String} {f : Nat → String → String}
    (h : ∀ place kind, kinds[place]? = some kind → ∀ name,
      c.mentioned? (.strict c.lexicon.strict kind) (f place name) =
        c.mentioned? (.strict c.lexicon.strict kind) name) (groups : List Group) :
    ((kinds.zip (Group.renameAll f groups)).mapM fun e => c.tokens? e.1 e.2) =
      (kinds.zip groups).mapM fun e => c.tokens? e.1 e.2 := by
  induction kinds generalizing f groups with
  | nil => rfl
  | cons kind kinds ih =>
    cases groups with
    | nil => rfl
    | cons g groups =>
      have htokens : c.tokens? kind (g.rename (f 0)) = c.tokens? kind g := by
        rw [tokens?, tokens?, mentions_rename (h 0 kind rfl)]
      have hrest := ih (f := fun place => f (place + 1))
        (fun place kind hkind => h (place + 1) kind hkind) groups
      rw [Group.renameAll_cons, List.zip_cons_cons, List.zip_cons_cons, mapM_cons_eq_bind,
        mapM_cons_eq_bind, htokens, hrest]

theorem matched?_rename {kinds : List String} {f : Nat → String → String}
    (h : ∀ place kind, kinds[place]? = some kind → ∀ name,
      c.mentioned? (.strict c.lexicon.strict kind) (f place name) =
        c.mentioned? (.strict c.lexicon.strict kind) name) (b : Bool) (clause : Clause) :
    c.matched? b kinds (clause.rename f) = c.matched? b kinds clause := by
  have htokens : c.clauseTokens? kinds (clause.rename f) = c.clauseTokens? kinds clause := by
    rw [clauseTokens?, clauseTokens?, Clause.groups_rename, Group.length_renameAll,
      mapM_tokens?_rename h]
  rw [matched?, matched?, htokens, Clause.value_rename]

end Setting

/-- Where the groups at some place of the clauses are read. -/
def Target.scopeAt? (d : Lexicon) : Target → Nat → Option Scope
  | loose, _ => some (.loose d.loose)
  | named kind, _ => some (.strict d.strict kind)
  | complex kinds, place => kinds[place]?.map (.strict d.strict)
  | invalid _, _ => none

/-- Clauses give the same if their members mention the same tokens under other names. -/
theorem Setting.outcome?_rename {c : Setting} {target : Target} {f : Nat → String → String}
    (h : ∀ place scope, target.scopeAt? c.lexicon place = some scope → ∀ name,
      c.mentioned? scope (f place name) = c.mentioned? scope name) (clauses : List Clause) :
    c.outcome? (clauses.map (·.rename f)) target = c.outcome? clauses target := by
  cases target with
  | loose =>
    rw [outcome?, outcome?, singleOutcome?, singleOutcome?, readings_rename (h 0 _ rfl)]
  | named kind =>
    rw [outcome?, outcome?, singleOutcome?, singleOutcome?, readings_rename (h 0 _ rfl)]
  | complex kinds =>
    have hmatched (b : Bool) : c.matched? b kinds ∘ (·.rename f) = c.matched? b kinds := by
      funext clause
      refine c.matched?_rename ?_ b clause
      exact fun place kind hkind => h place _ (congrArg (Option.map _) hkind)
    rw [outcome?, outcome?, complexOutcome?, complexOutcome?, List.findSome?_map,
      List.findSome?_map, hmatched, hmatched]
  | invalid s => rfl

/-! ## Aliases -/

/-- A name, or something in its place if it is an alias of the scope. -/
def Scope.replaceAlias (s : Scope) (f : Token → String) (name : String) : String :=
  match s.token? name with
  | some t => if t.isAlias then f t else name
  | none => name

/-- The pattern in which each member that names an alias of the scope it is read in names something
else. -/
def Pattern.replaceAliases (d : Lexicon) (f : Token → String) (p : Pattern) : Pattern :=
  p.rename fun place name =>
    match p.target.scopeAt? d place with
    | some scope => scope.replaceAlias f name
    | none => name

/-- No store holds a name. -/
def Lexicon.Lacks (d : Lexicon) (name : String) : Prop :=
  d.loose.token? name none = none ∧ ∀ kind, d.strict.token? name kind = none

namespace Scope

variable {s : Scope} {f : Token → String} {name : String}

theorem replaceAlias_of_alias {t : Token} (h : s.token? name = some t) (ht : t.isAlias) :
    s.replaceAlias f name = f t := by
  rw [replaceAlias, h]
  exact if_pos ht

theorem replaceAlias_of_not_alias (h : ∀ t, s.token? name = some t → t.isAlias = false) :
    s.replaceAlias f name = name := by
  unfold replaceAlias
  split
  case h_1 t ht => rw [h t ht, if_neg Bool.false_ne_true]
  case h_2 => rfl

/-- A name is an alias, or it is not replaced. -/
theorem replaceAlias_cases (s : Scope) (f : Token → String) (name : String) :
    (∃ t, s.token? name = some t ∧ t.isAlias ∧ s.replaceAlias f name = f t) ∨
      (∀ t, s.token? name = some t → t.isAlias = false) ∧ s.replaceAlias f name = name := by
  by_cases h : ∃ t, s.token? name = some t ∧ t.isAlias
  · obtain ⟨t, ht, halias⟩ := h
    exact .inl ⟨t, ht, halias, replaceAlias_of_alias ht halias⟩
  · have hnot (t : Token) (ht : s.token? name = some t) : t.isAlias = false :=
      Bool.eq_false_iff.2 fun halias => h ⟨t, ht, halias⟩
    exact .inr ⟨hnot, replaceAlias_of_not_alias hnot⟩

end Scope

/-! ## What stands in for an alias -/

section

variable {d : Lexicon} {target : Target} {place : Nat} {scope : Scope} {name : String}

theorem Target.scopeAt?_cases (h : target.scopeAt? d place = some scope) :
    scope = .loose d.loose ∨ ∃ kind, scope = .strict d.strict kind := by
  cases target with
  | loose => exact .inl (Option.some.inj h).symm
  | named kind => exact .inr ⟨kind, (Option.some.inj h).symm⟩
  | complex kinds =>
    obtain ⟨kind, -, hscope⟩ := Option.map_eq_some_iff.1 h
    exact .inr ⟨kind, hscope.symm⟩
  | invalid s => cases h

theorem Target.wellFormed_of_scopeAt? (hd : d.Built) (h : target.scopeAt? d place = some scope) :
    scope.WellFormed := by
  rcases scopeAt?_cases h with rfl | ⟨kind, rfl⟩
  · exact Scope.wellFormed_loose hd
  · exact Scope.wellFormed_strict hd kind

theorem Target.isName_of_scopeAt? (hd : d.Built) (h : target.scopeAt? d place = some scope)
    {t : Token} (ht : scope.token? name = some t) : isName name := by
  rcases scopeAt?_cases h with rfl | ⟨kind, rfl⟩
  · exact (hd.wellFormed_loose.valid ((Scope.token?_loose ..).symm.trans ht)).1
  · exact (hd.wellFormed_strict.valid ht).1

theorem Lexicon.Lacks.token? (hlacks : d.Lacks name) (h : target.scopeAt? d place = some scope) :
    scope.token? name = none := by
  rcases Target.scopeAt?_cases h with rfl | ⟨kind, rfl⟩
  · exact hlacks.1
  · exact hlacks.2 kind

/-- The name that stands for the default of a kind is the name of no token. -/
theorem Lexicon.Built.lacks_defaultName (hd : d.Built) : d.Lacks defaultName := by
  refine ⟨?_, ?_⟩
  · rw [Option.eq_none_iff_forall_ne_some]
    intro t ht
    exact (hd.wellFormed_loose.valid (LooseStore.token?_eq_some_iff.1 ht).1).2 rfl
  · intro kind
    rw [Option.eq_none_iff_forall_ne_some]
    intro t ht
    exact (hd.wellFormed_strict.valid ht).2 rfl

variable {c : Setting}

theorem Scope.WellFormed.exists_trueName (hs : scope.WellFormed) {t : Token}
    (h : scope.token? name = some t) (ht : t.isAlias) :
    t.target? = some t.trueName ∧
      ∃ base, scope.token? t.trueName = some base ∧ base.target? = none := by
  obtain ⟨base, hbase⟩ := Option.isSome_iff_exists.1 ht
  have htarget : t.target? = some t.trueName := by
    rw [Token.trueName, hbase, Option.getD_some]
  obtain ⟨u, hu, htrue, -⟩ := hs.target h htarget
  exact ⟨htarget, u, hu, htrue⟩

/-- Where patterns may mention aliases, the true token behind an alias may stand in for it. -/
theorem Setting.mentioned?_trueName (hs : scope.WellFormed) (hon : c.switches.aliasedPatterns)
    (name : String) :
    c.mentioned? scope (scope.replaceAlias Token.trueName name) = c.mentioned? scope name := by
  rcases scope.replaceAlias_cases Token.trueName name with ⟨t, ht, halias, hname⟩ | ⟨-, hname⟩
  · obtain ⟨htarget, base, hbase, htrue⟩ := hs.exists_trueName ht halias
    rw [hname, ← lookUp_eq, ← lookUp_eq, lookUp_of_alias c ht htarget, if_pos hon, hbase,
      lookUp_of_plain c hbase htrue]
  · rw [hname]

/-- Where they may not, any unknown name may. -/
theorem Setting.mentioned?_unknown (hoff : c.switches.aliasedPatterns = false) {unknown : String}
    (hunknown : scope.token? unknown = none) (name : String) :
    c.mentioned? scope (scope.replaceAlias (fun _ => unknown) name) = c.mentioned? scope name := by
  rcases scope.replaceAlias_cases (fun _ => unknown) name with ⟨t, ht, halias, hname⟩ | ⟨-, hname⟩
  · obtain ⟨target, htarget⟩ := Option.isSome_iff_exists.1 halias
    rw [hname, ← lookUp_eq name, lookUp_of_alias c ht htarget, hoff, if_neg Bool.false_ne_true,
      mentioned?, hunknown, Option.bind_none]
  · rw [hname]

end

/-! ## Patterns -/

theorem Member.wellFormed_of_isName {name : String} (h : isName name) (negated : Bool) :
    (Member.mk name negated).WellFormed where
  chars c hc hmem := by
    have hname := Target.isNameChar_of_mem h hmem
    simp only [List.mem_cons, List.not_mem_nil, or_false] at hc
    rcases hc with rfl | rfl | rfl | rfl | rfl <;> exact absurd hname (by decide)
  plain _ hhead := absurd (Target.isNameChar_of_mem h (List.mem_of_mem_head? hhead)) (by decide)

namespace Pattern

variable {d : Lexicon} {p : Pattern} {f : Token → String}

/-- Some member of a pattern names an alias of the scope it is read in. -/
def NamesAlias (d : Lexicon) (p : Pattern) : Prop :=
  ∃ clause ∈ p.clauses, ∃ place g scope, clause.groups[place]? = some g ∧
    p.target.scopeAt? d place = some scope ∧
    ∃ m ∈ g.members, ∃ t, scope.token? m.name = some t ∧ t.isAlias

/-- No alias is left if what stands in for aliases names none. -/
theorem not_namesAlias_replaceAliases
    (h : ∀ place scope name t u, p.target.scopeAt? d place = some scope →
      scope.token? name = some t → t.isAlias → scope.token? (f t) = some u → u.isAlias = false) :
    ¬(p.replaceAliases d f).NamesAlias d := by
  rintro ⟨clause, hclause, place, g, scope, hg, hscope, m, hm, u, hu, halias⟩
  obtain ⟨clause, -, rfl⟩ := List.mem_map.1 hclause
  rw [Clause.groups_rename, Group.renameAll, List.getElem?_mapIdx] at hg
  obtain ⟨g, -, rfl⟩ := Option.map_eq_some_iff.1 hg
  obtain ⟨m, -, rfl⟩ := List.mem_map.1 hm
  have hscope : p.target.scopeAt? d place = some scope := hscope
  simp only [Member.rename, hscope] at hu
  rcases scope.replaceAlias_cases f m.name with ⟨t, ht, htalias, hname⟩ | ⟨hnot, hname⟩
  · rw [hname] at hu
    rw [h place scope m.name t u hscope ht htalias hu] at halias
    cases halias
  · rw [hname] at hu
    rw [hnot u hu] at halias
    cases halias

/-- The pattern can be written if what stands in for aliases can. -/
theorem WellFormed.replaceAliases (h : p.WellFormed)
    (hf : ∀ place scope name t, p.target.scopeAt? d place = some scope →
      scope.token? name = some t → t.isAlias → ∀ negated, (Member.mk (f t) negated).WellFormed) :
    (p.replaceAliases d f).WellFormed := by
  refine h.rename ?_
  intro place m hm
  rw [Member.rename]
  split
  case h_1 scope hscope =>
    rcases scope.replaceAlias_cases f m.name with ⟨t, ht, halias, hname⟩ | ⟨-, hname⟩
    · rw [hname]
      exact hf place scope m.name t hscope ht halias m.negated
    · rw [hname]
      exact hm
  case h_2 => exact hm

/-- Where what stands in for aliases mentions what they do, the pattern renders alike. -/
theorem interpolate_written_replaceAliases (hd : d.Reachable) {text : String}
    (hp : p ∈ patterns text) {switches : Switches} {options : Options}
    (hquiet : (switches.merged options.overrides).raises = false)
    (hwell : (p.replaceAliases d f).WellFormed)
    (h : ∀ place scope, p.target.scopeAt? d place = some scope → ∀ name,
      Setting.mentioned? ⟨d, options, switches.merged options.overrides⟩ scope
          (scope.replaceAlias f name) =
        Setting.mentioned? ⟨d, options, switches.merged options.overrides⟩ scope name) :
    interpolate (p.replaceAliases d f).written d switches options =
      interpolate p.source d switches options := by
  rw [interpolate_written_eq hd hquiet hwell, interpolate_source_eq hd hquiet hp]
  refine congrArg (fun o => Except.ok (Option.getD o p.freeText)) ?_
  refine Setting.outcome?_rename ?_ p.clauses
  intro place scope (hscope : p.target.scopeAt? d place = some scope) name
  simp only [hscope]
  exact h place scope hscope name

end Pattern

/-- Where patterns may mention aliases, a pattern renders as the one that names the true tokens
instead; where they may not, it renders as any that names something instead that no store holds,
and there is such a name.  Either pattern can be written, and names no alias. -/
theorem interpolate_replaceAliases {d : Lexicon} (hd : d.Reachable) {text : String} {p : Pattern}
    (hp : p ∈ patterns text) {switches : Switches} {options : Options}
    (hquiet : (switches.merged options.overrides).raises = false) :
    ((switches.merged options.overrides).aliasedPatterns →
      let q := p.replaceAliases d Token.trueName
      ¬q.NamesAlias d ∧ scan q.written = [.pattern { q with source := q.written }] ∧
        interpolate q.written d switches options = interpolate p.source d switches options) ∧
    ((switches.merged options.overrides).aliasedPatterns = false →
      (∃ unknown, d.Lacks unknown ∧ (Member.mk unknown false).WellFormed) ∧
      ∀ unknown, d.Lacks unknown → (Member.mk unknown false).WellFormed →
        let q := p.replaceAliases d fun _ => unknown
        ¬q.NamesAlias d ∧ scan q.written = [.pattern { q with source := q.written }] ∧
          interpolate q.written d switches options = interpolate p.source d switches options) := by
  have hbuilt := hd.toBuilt
  have hp' : p.WellFormed := Pattern.wellFormed_of_mem_patterns hp
  refine ⟨?_, ?_⟩
  · intro hon q
    have hwell : q.WellFormed := by
      refine hp'.replaceAliases ?_
      intro place scope name t hscope ht halias negated
      have hs := Target.wellFormed_of_scopeAt? hbuilt hscope
      obtain ⟨-, base, hbase, -⟩ := hs.exists_trueName ht halias
      exact Member.wellFormed_of_isName (Target.isName_of_scopeAt? hbuilt hscope hbase) negated
    refine ⟨?_, Pattern.scan_written hwell, ?_⟩
    · refine Pattern.not_namesAlias_replaceAliases ?_
      intro place scope name t u hscope ht halias hu
      have hs := Target.wellFormed_of_scopeAt? hbuilt hscope
      obtain ⟨-, base, hbase, htrue⟩ := hs.exists_trueName ht halias
      obtain rfl : base = u := Option.some.inj (hbase.symm.trans hu)
      rw [Token.isAlias, htrue, Option.isSome_none]
    · refine Pattern.interpolate_written_replaceAliases hd hp hquiet hwell ?_
      intro place scope hscope
      exact Setting.mentioned?_trueName (Target.wellFormed_of_scopeAt? hbuilt hscope) hon
  · intro hoff
    refine ⟨⟨defaultName, hbuilt.lacks_defaultName, ?_⟩, ?_⟩
    · exact Member.wellFormed_of_isName (by decide) false
    · intro unknown hlacks hunknown q
      have hwell : q.WellFormed := by
        refine hp'.replaceAliases ?_
        intro _ _ _ _ _ _ _ negated
        exact ⟨hunknown.chars, fun _ => hunknown.plain rfl⟩
      refine ⟨?_, Pattern.scan_written hwell, ?_⟩
      · refine Pattern.not_namesAlias_replaceAliases ?_
        intro place scope name t u hscope ht halias hu
        rw [hlacks.token? hscope] at hu
        cases hu
      · refine Pattern.interpolate_written_replaceAliases hd hp hquiet hwell ?_
        intro place scope hscope
        exact Setting.mentioned?_unknown hoff (hlacks.token? hscope)

/-- The alias `lady` stands for `f` if patterns may mention aliases, and for an unknown name if they
may not. -/
theorem interpolate_replaceAliases_lady :
    let d : Lexicon := ⟨"en", .empty "en", (StrictStore.empty "en").attemptAll
      [.addToken "f" "gender" "female", .addToken "m" "gender" "male",
        .addAlias "lady" "f" "gender", .addToken "sg" "number" "one"]⟩
    let p : Pattern := ⟨"@gender+number{!lady+sg:he|lady,m+sg:~}", .complex ["gender", "number"],
      [.choice [⟨[⟨"lady", true⟩]⟩, ⟨[⟨"sg", false⟩]⟩] (.text "he"),
        .choice [⟨[⟨"lady", false⟩, ⟨"m", false⟩]⟩, ⟨[⟨"sg", false⟩]⟩] .loud], none⟩
    let on : Switches := Switches.standard.set .aliasedPatterns true
    let options : Options :=
      (Options.empty.insertIfValid "gender" "f").insertIfValid "number" "sg"
    d.Reachable ∧ p ∈ patterns p.source ∧
      interpolate "@gender+number{!f+sg:he|f,m+sg:~}" d on options = .ok "female one" ∧
      interpolate p.source d on options = .ok "female one" ∧
      interpolate "@gender+number{!default+sg:he|default,m+sg:~}" d Switches.standard options =
        interpolate p.source d Switches.standard options := by
  intro d p on options
  have hd : d.Reachable := .built ⟨⟨"en", [], rfl⟩, ⟨"en", _, rfl⟩⟩
  have hp : p ∈ patterns p.source := by decide +kernel
  have htrue : (p.replaceAliases d Token.trueName).written =
      "@gender+number{!f+sg:he|f,m+sg:~}" := by
    decide +kernel
  have hunknown : (p.replaceAliases d fun _ => defaultName).written =
      "@gender+number{!default+sg:he|default,m+sg:~}" := by
    decide +kernel
  have hrendered : interpolate p.source d on options = .ok "female one" := by decide +kernel
  have hquiet : (on.merged options.overrides).raises = false := by decide +kernel
  have hquiet' : (Switches.standard.merged options.overrides).raises = false := by decide +kernel
  have htransparent := ((interpolate_replaceAliases hd hp hquiet).1 (by decide +kernel)).2.2
  have hinvisible := ((interpolate_replaceAliases hd hp hquiet').2 (by decide +kernel)).2
    defaultName hd.toBuilt.lacks_defaultName (Member.wellFormed_of_isName (by decide) false)
  refine ⟨hd, hp, ?_, hrendered, ?_⟩
  · rw [← htrue, htransparent, hrendered]
  · rw [← hunknown, hinvisible.2.2]

end Inflection
