import Inflection.Proofs.Render.Requests
import Inflection.Proofs.Render.Segmentwise

/-!
# Rendering in another place

A pattern is read through the tokens and defaults of its scope, the options of its kinds and the
switches.  Where two settings agree on these for two scopes, the same clauses render alike, fault
for fault.  The pattern itself may be another one: its source is what faults begin with, and its
free text is what is left when no clause applies.

## Main statements

* `Setting.Mirrors.renderFrom`, `Setting.Mirrors.renderComplexFrom`: clauses render alike in the two
  scopes.
* `Setting.answer_of_renderPattern`: then patterns answer alike, faults raised or not.
* `interpolate_of_matches`: settings that read every scope alike render every text alike.
* `interpolate_of_requests`, `Lexicon.Mirrors.interpolate`: so do options with the same requests
  under the same switches, and lexicons with the same look-ups.
-/

namespace Inflection

/-! ## Faults of another pattern -/

namespace Fault

/-- The fault as one of the pattern with another source. -/
def inPattern (source : String) : Fault → Fault
  | invalidToken _ token => .invalidToken source token
  | misplacedToken _ token kind expected => .misplacedToken source token kind expected
  | invalidKind _ kind => .invalidKind source kind
  | optionNotFound _ kind => .optionNotFound source kind
  | optionIncorrect _ kind option => .optionIncorrect source kind option
  | complexPatternMalformed _ tokens expected got =>
    .complexPatternMalformed source tokens expected got

/-- A map takes the faults of one pattern to the same faults of another. -/
structure Carries (f : Fault → Fault) (source source' : String) : Prop where
  invalidToken : ∀ token, f (.invalidToken source token) = .invalidToken source' token
  misplacedToken : ∀ token kind expected, f (.misplacedToken source token kind expected) =
    .misplacedToken source' token kind expected
  invalidKind : ∀ kind, f (.invalidKind source kind) = .invalidKind source' kind
  optionNotFound : ∀ kind, f (.optionNotFound source kind) = .optionNotFound source' kind
  optionIncorrect : ∀ kind option, f (.optionIncorrect source kind option) =
    .optionIncorrect source' kind option
  complexPatternMalformed : ∀ tokens expected got,
    f (.complexPatternMalformed source tokens expected got) =
      .complexPatternMalformed source' tokens expected got

theorem carries_inPattern (source source' : String) :
    Carries (inPattern source') source source' :=
  ⟨fun _ => rfl, fun _ _ _ => rfl, fun _ => rfl, fun _ => rfl, fun _ _ => rfl, fun _ _ _ => rfl⟩

theorem carries_id (source : String) : Carries id source source :=
  ⟨fun _ => rfl, fun _ _ _ => rfl, fun _ => rfl, fun _ => rfl, fun _ _ => rfl, fun _ _ _ => rfl⟩

end Fault

namespace Setting

/-! ## Scopes that are read alike -/

/-- Two settings read two scopes alike, as far as some kinds go. -/
structure Mirrors (c c' : Setting) (scope scope' : Scope) (Kinds : String → Prop) : Prop where
  switches : c'.switches = c.switches
  token? : ∀ name, scope'.token? name = scope.token? name
  kinds : ∀ {name t}, scope.token? name = some t → Kinds t.kind
  default? : ∀ {kind}, Kinds kind → scope'.default? kind = scope.default? kind
  requested? : ∀ {kind}, Kinds kind → c'.options.requested? kind scope'.isStrict =
    c.options.requested? kind scope.isStrict

/-- A token that a group mentions is one of the scope. -/
theorem exists_token?_of_mem_mentions {c : Setting} {scope : Scope} {g : Group} {m : Mention}
    (h : m ∈ c.mentions scope g) : ∃ name, scope.token? name = some m.token := by
  obtain ⟨member, -, hmember⟩ := List.mem_filterMap.1 h
  obtain ⟨t, ht, rfl⟩ := Option.map_eq_some_iff.1 hmember
  obtain ⟨u, hu, ht⟩ := Option.bind_eq_some_iff.1 ht
  split at ht
  · split at ht
    · exact ⟨u.trueName, ht⟩
    · cases ht
  · cases ht
    exact ⟨member.name, hu⟩

theorem Mirrors.refl (c : Setting) (scope : Scope) : c.Mirrors c scope scope fun _ => True :=
  ⟨rfl, fun _ => rfl, fun _ => trivial, fun _ => rfl, fun _ => rfl⟩

namespace Mirrors

variable {c c' : Setting} {p q : Pattern} {scope scope' : Scope} {Kinds : String → Prop}
  {f : Fault → Fault} {kind : String}

theorem lookUp (h : c.Mirrors c' scope scope' Kinds) (name : String) :
    c'.lookUp scope' name = c.lookUp scope name := by
  unfold Setting.lookUp
  simp only [h.token?, h.switches]

theorem description? (h : c.Mirrors c' scope scope' Kinds) (name : String) :
    scope'.description? name = scope.description? name := by
  rw [Scope.description?, Scope.description?, h.token?]

theorem trueToken? (h : c.Mirrors c' scope scope' Kinds) (name kind : String) :
    scope'.trueToken? name kind = scope.trueToken? name kind := by
  rw [Scope.trueToken?, Scope.trueToken?, h.token?]

theorem nextFallback (h : c.Mirrors c' scope scope' Kinds) (s : Selection) (g : Tokens)
    (value : Value) (fallback? : Option (Value × String)) :
    c'.nextFallback s g value fallback? = c.nextFallback s g value fallback? := by
  rw [Setting.nextFallback, Setting.nextFallback, h.switches]

theorem resolveMember (h : c.Mirrors c' scope scope' Kinds)
    (hf : Fault.Carries f p.source q.source) (member : Member) :
    (c'.resolveMember q scope' member : Report _) =
      Report.mapFaults f (c.resolveMember p scope member) := by
  rw [Setting.resolveMember, Setting.resolveMember, h.lookUp]
  cases c.lookUp scope member.name with
  | some t => rfl
  | none => exact Report.bind_eq_mapFaults (congrArg note (hf.invalidToken _).symm) rfl

theorem resolveMembers (h : c.Mirrors c' scope scope' Kinds)
    (hf : Fault.Carries f p.source q.source) (members : List Member) (kind? : Option String) :
    (c'.resolveMembers q scope' members kind? : Report _) =
      Report.mapFaults f (c.resolveMembers p scope members kind?) := by
  induction members generalizing kind? with
  | nil => rfl
  | cons member members ih =>
    rw [Setting.resolveMembers, Setting.resolveMembers]
    refine Report.bind_eq_mapFaults (h.resolveMember hf member) ?_
    cases (c.resolveMember p scope member : Report _).value with
    | none => exact ih kind?
    | some t =>
      dsimp only
      split
      · exact Report.bind_eq_mapFaults (ih _) rfl
      · exact Report.bind_eq_mapFaults (congrArg note (hf.misplacedToken _ _ _).symm) rfl

theorem resolveGroup (h : c.Mirrors c' scope scope' Kinds)
    (hf : Fault.Carries f p.source q.source) (kind? : Option String) (group : Group) :
    (c'.resolveGroup q scope' kind? group : Report _) =
      Report.mapFaults f (c.resolveGroup p scope kind? group) := by
  rw [Setting.resolveGroup, Setting.resolveGroup]
  exact Report.bind_eq_mapFaults (h.resolveMembers hf group.members kind?) rfl

theorem select (h : c.Mirrors c' scope scope' Kinds)
    (hf : Fault.Carries f p.source q.source) (hkind : Kinds kind) :
    (c'.select q scope' kind : Report _) = Report.mapFaults f (c.select p scope kind) := by
  rw [Setting.select, Setting.select]
  simp only [h.switches, h.default? hkind, h.requested? hkind, h.trueToken?]
  generalize (if c.switches.unknownDefaults then scope.default? kind else none) = fallback?
  cases c.options.requested? kind scope.isStrict with
  | none =>
    cases fallback? with
    | some fallback => rfl
    | none => exact Report.bind_eq_mapFaults (congrArg note (hf.optionNotFound _).symm) rfl
  | some requested =>
    dsimp only
    cases scope.trueToken? requested kind with
    | some t => rfl
    | none =>
      cases fallback? with
      | some fallback => rfl
      | none => exact Report.bind_eq_mapFaults (congrArg note (hf.optionIncorrect _ _).symm) rfl

theorem selected (h : c.Mirrors c' scope scope' Kinds)
    (hf : Fault.Carries f p.source q.source) (hkind : Kinds kind) (selection? : Option Selection) :
    (c'.selected q scope' kind selection? : Report _) =
      Report.mapFaults f (c.selected p scope kind selection?) := by
  cases selection? with
  | none => exact h.select hf hkind
  | some selection => rfl

/-! ### Loose and named patterns -/

/-- The kind of a group is one that has been read before or that a token of the scope has. -/
theorem kind_of_resolveGroup (h : c.Mirrors c' scope scope' Kinds) {kind? : Option String}
    (hkind? : ∀ kind, kind? = some kind → Kinds kind) {group : Group}
    (hkind : (c.resolveGroup p scope kind? group : Report _).value.1 = some kind) :
    Kinds kind := by
  rw [value_resolveGroup] at hkind
  rcases Option.or_eq_some_iff.1 hkind with hkind | ⟨-, hkind⟩
  · exact hkind? kind hkind
  · obtain ⟨m, hm, rfl⟩ := Option.map_eq_some_iff.1 hkind
    obtain ⟨name, hname⟩ := exists_token?_of_mem_mentions (List.mem_of_mem_head? hm)
    exact h.kinds hname

theorem renderRest (h : c.Mirrors c' scope scope' Kinds) (hfree : q.freeText? = p.freeText?)
    (s : Progress) : Setting.renderRest q scope' s = Setting.renderRest p scope s := by
  rw [Setting.renderRest, Setting.renderRest, Pattern.freeText, Pattern.freeText, hfree]
  simp only [h.description?]

/-- Clauses render alike in the two scopes, with the faults of the other pattern. -/
theorem renderFrom (h : c.Mirrors c' scope scope' Kinds)
    (hf : Fault.Carries f p.source q.source) (hfree : q.freeText? = p.freeText?)
    (clauses : List Clause) {s : Progress} (hs : ∀ kind, s.kind? = some kind → Kinds kind) :
    (c'.renderFrom q scope' clauses s : Report String) =
      Report.mapFaults f (c.renderFrom p scope clauses s) := by
  induction clauses generalizing s with
  | nil => exact congrArg pure (h.renderRest hfree s)
  | cons clause clauses ih =>
    rcases clause.groups_cases with ⟨group, hgroup⟩ | hne
    · rw [renderFrom_of_group hgroup, renderFrom_of_group hgroup]
      refine Report.bind_eq_mapFaults (h.resolveGroup hf s.kind? group) ?_
      have hkinds : ∀ kind, (c.resolveGroup p scope s.kind? group : Report _).value.1 = some kind →
          Kinds kind := fun _ => h.kind_of_resolveGroup hs
      generalize (c.resolveGroup p scope s.kind? group : Report _).value = r at hkinds ⊢
      obtain ⟨_ | kind, _ | tokens⟩ := r
      case some.some =>
        have hkind : Kinds kind := hkinds kind rfl
        refine Report.bind_eq_mapFaults (h.selected hf hkind s.selection?) ?_
        unfold renderChoice
        rw [h.nextFallback]
        split
        · rw [h.description?]
          rfl
        · exact ih fun kind' hkind' => Option.some.inj hkind' ▸ hkind
      all_goals exact ih hkinds
    · rw [renderFrom_of_ne hne, renderFrom_of_ne hne]
      exact Report.bind_eq_mapFaults (congrArg note (hf.invalidToken _).symm) (ih hs)

/-! ### Complex patterns -/

variable {scopes scopes' : List Scope}

theorem resolveGroups (h : List.Forall₂ (c.Mirrors c' · · Kinds) scopes scopes')
    (hf : Fault.Carries f p.source q.source) (groups : List Group) :
    (c'.resolveGroups q scopes' groups : Report _) =
      Report.mapFaults f (c.resolveGroups p scopes groups) := by
  induction h generalizing groups with
  | nil => cases groups <;> rfl
  | cons hscope _ ih =>
    cases groups with
    | nil => rfl
    | cons group groups =>
      rw [Setting.resolveGroups, Setting.resolveGroups]
      refine Report.bind_eq_mapFaults (hscope.resolveGroup hf none group) ?_
      generalize (c.resolveGroup p _ none group : Report _).value = r
      obtain ⟨kind?, _ | tokens⟩ := r
      · rfl
      · exact Report.bind_eq_mapFaults (ih groups) rfl

theorem selectAll (h : List.Forall₂ (c.Mirrors c' · · Kinds) scopes scopes')
    (hf : Fault.Carries f p.source q.source) {kinds : List String}
    (hkinds : ∀ kind ∈ kinds, Kinds kind) :
    (c'.selectAll q scopes' kinds : Report _) =
      Report.mapFaults f (c.selectAll p scopes kinds) := by
  induction h generalizing kinds with
  | nil => cases kinds <;> rfl
  | cons hscope _ ih =>
    cases kinds with
    | nil => rfl
    | cons kind kinds =>
      obtain ⟨hkind, hkinds⟩ := List.forall_mem_cons.1 hkinds
      rw [Setting.selectAll, Setting.selectAll]
      refine Report.bind_eq_mapFaults (hscope.select hf hkind) ?_
      exact Report.bind_eq_mapFaults (ih hkinds) rfl

theorem selectedAll (h : List.Forall₂ (c.Mirrors c' · · Kinds) scopes scopes')
    (hf : Fault.Carries f p.source q.source) {kinds : List String}
    (hkinds : ∀ kind ∈ kinds, Kinds kind) (selections? : Option (List Selection)) :
    (c'.selectedAll q scopes' kinds selections? : Report _) =
      Report.mapFaults f (c.selectedAll p scopes kinds selections?) := by
  cases selections? with
  | none => exact selectAll h hf hkinds
  | some selections => rfl

theorem renderFound (h : List.Forall₂ (c.Mirrors c' · · Kinds) scopes scopes') (value : Value)
    (found : List String) :
    Setting.renderFound value scopes' found = Setting.renderFound value scopes found := by
  rw [Setting.renderFound, Setting.renderFound]
  refine congrArg (value.render ·) ?_
  induction h generalizing found with
  | nil => rfl
  | cons hscope _ ih =>
    cases found with
    | nil => rfl
    | cons name found =>
      rw [List.zipWith_cons_cons, List.zipWith_cons_cons, hscope.description?, ih]

theorem renderCandidates (h : List.Forall₂ (c.Mirrors c' · · Kinds) scopes scopes')
    (hfree : q.freeText? = p.freeText?) (selections : List Selection)
    (candidates : List (Value × List Tokens)) :
    Setting.renderCandidates q scopes' selections candidates =
      Setting.renderCandidates p scopes selections candidates := by
  induction candidates with
  | nil => rw [Setting.renderCandidates, Setting.renderCandidates, Pattern.freeText, hfree]; rfl
  | cons candidate candidates ih =>
    obtain ⟨value, groups⟩ := candidate
    rw [Setting.renderCandidates, Setting.renderCandidates, ih]
    simp only [renderFound h]

theorem renderComplexFrom (h : List.Forall₂ (c.Mirrors c' · · Kinds) scopes scopes')
    (hswitches : c'.switches = c.switches) (hf : Fault.Carries f p.source q.source)
    (hfree : q.freeText? = p.freeText?) {kinds : List String}
    (hkinds : ∀ kind ∈ kinds, Kinds kind) (clauses : List Clause)
    (selections? : Option (List Selection)) (candidates : List (Value × List Tokens)) :
    (c'.renderComplexFrom q kinds scopes' clauses selections? candidates : Report String) =
      Report.mapFaults f (c.renderComplexFrom p kinds scopes clauses selections? candidates) := by
  induction clauses generalizing selections? candidates with
  | nil => exact congrArg pure (renderCandidates h hfree _ candidates)
  | cons clause clauses ih =>
    by_cases hlen : clause.groups.length = kinds.length
    · rw [renderComplexFrom_of_length hlen, renderComplexFrom_of_length hlen]
      refine Report.bind_eq_mapFaults (resolveGroups h hf clause.groups) ?_
      cases (c.resolveGroups p scopes clause.groups : Report _).value with
      | none => exact ih selections? candidates
      | some groups =>
        refine Report.bind_eq_mapFaults (selectedAll h hf hkinds selections?) ?_
        unfold renderComplexChoice
        rw [hswitches]
        split
        · exact congrArg pure (renderFound h _ _)
        · exact ih _ _
    · rw [renderComplexFrom_of_ne hlen, renderComplexFrom_of_ne hlen]
      exact Report.bind_eq_mapFaults (congrArg note (hf.complexPatternMalformed _ _ _).symm)
        (ih selections? candidates)

end Mirrors

/-! ## Patterns -/

variable {c c' : Setting} {p q : Pattern}

/-- Patterns that render alike but for their faults answer alike, faults raised or not. -/
theorem answer_of_renderPattern {f : Fault → Fault} (hswitches : c'.switches = c.switches)
    (h : (c'.renderPattern q : Report String) = Report.mapFaults f (c.renderPattern p)) :
    c'.answer (.pattern q) = (c.answer (.pattern p)).mapError f := by
  unfold answer
  dsimp only
  rw [← raise_renderPattern (Alike.refl c'), ← raise_renderPattern (Alike.refl c), h,
    Report.raise_mapFaults, hswitches, rendered, rendered, h]
  split <;> rfl

/-- Two settings have the same strict kinds and read every scope alike. -/
structure Matches (c c' : Setting) : Prop where
  switches : c'.switches = c.switches
  hasKind : ∀ kind, c'.lexicon.strict.hasKind kind = c.lexicon.strict.hasKind kind
  loose : c.Mirrors c' (.loose c.lexicon.loose) (.loose c'.lexicon.loose) fun _ => True
  strict : ∀ kind, c.Mirrors c' (.strict c.lexicon.strict kind) (.strict c'.lexicon.strict kind)
    fun _ => True

theorem Matches.renderPattern (h : c.Matches c') (p : Pattern) :
    (c'.renderPattern p : Report String) = c.renderPattern p := by
  have hid : Fault.Carries id p.source p.source := Fault.carries_id p.source
  rw [← Report.mapFaults_id (c.renderPattern p), Setting.renderPattern, Setting.renderPattern]
  cases p.target with
  | loose => exact h.loose.renderFrom hid rfl p.clauses fun _ _ => trivial
  | named kind =>
    dsimp only
    rw [h.hasKind]
    split
    · exact (h.strict kind).renderFrom hid rfl p.clauses fun _ _ => trivial
    · rfl
  | complex kinds =>
    have hscopes : List.Forall₂ (c.Mirrors c' · · fun _ => True)
        (kinds.map (.strict c.lexicon.strict)) (kinds.map (.strict c'.lexicon.strict)) := by
      rw [List.forall₂_map_left_iff, List.forall₂_map_right_iff, List.forall₂_same]
      exact fun kind _ => h.strict kind
    dsimp only
    unfold Setting.renderComplex
    simp only [h.hasKind]
    cases kinds.find? (!c.lexicon.strict.hasKind ·) with
    | some unknown => rfl
    | none =>
      exact Mirrors.renderComplexFrom hscopes h.switches hid rfl (fun _ _ => trivial) p.clauses
        none []
  | invalid text => rfl

/-- Settings that read every scope alike answer every segment alike. -/
theorem Matches.answer (h : c.Matches c') : c'.answer = c.answer := by
  funext segment
  cases segment with
  | literal s => rfl
  | pattern p =>
    have hanswer : c'.answer (.pattern p) = (c.answer (.pattern p)).mapError id :=
      answer_of_renderPattern h.switches (by rw [Report.mapFaults_id, h.renderPattern])
    rw [hanswer]
    cases c.answer (.pattern p) <;> rfl

end Setting

/-- Settings that read every scope alike render every text alike. -/
theorem interpolate_of_matches {d d' : Lexicon} {switches switches' : Switches}
    {options options' : Options}
    (h : Setting.Matches ⟨d, options, switches.merged options.overrides⟩
      ⟨d', options', switches'.merged options'.overrides⟩) (text : String) :
    interpolate text d' switches' options' = interpolate text d switches options := by
  rw [interpolate_eq_mapM_answer, interpolate_eq_mapM_answer, h.answer]

/-- Options that ask for the same, with the same switches in force, render every text alike. -/
theorem interpolate_of_requests {switches switches' : Switches} {options options' : Options}
    (hrequests : options'.requests = options.requests)
    (hswitches : switches'.merged options'.overrides = switches.merged options.overrides)
    (text : String) (d : Lexicon) :
    interpolate text d switches' options' = interpolate text d switches options := by
  have hmirrors (scope : Scope) : Setting.Mirrors ⟨d, options, switches.merged options.overrides⟩
      ⟨d, options', switches'.merged options'.overrides⟩ scope scope fun _ => True := by
    refine ⟨hswitches, fun _ => rfl, fun _ => trivial, fun _ => rfl, fun {kind} _ => ?_⟩
    rw [Options.requested?, Options.requested?, Options.get?, Options.get?, Options.get?,
      Options.get?, hrequests]
  exact interpolate_of_matches ⟨hswitches, fun _ => rfl, hmirrors _, fun _ => hmirrors _⟩ text

/-! ## Lexicons -/

/-- Two lexicons have the same kinds, tokens and defaults. -/
structure Lexicon.Mirrors (d d' : Lexicon) : Prop where
  hasKind : ∀ kind, d'.strict.hasKind kind = d.strict.hasKind kind
  token?_loose : ∀ name, d'.loose.token? name none = d.loose.token? name none
  token?_strict : ∀ name kind, d'.strict.token? name kind = d.strict.token? name kind
  default?_loose : ∀ kind, d'.loose.default? kind = d.loose.default? kind
  default?_strict : ∀ kind, d'.strict.default? kind = d.strict.default? kind

namespace Lexicon.Mirrors

variable {d d' : Lexicon} {switches : Switches} {options : Options}

theorem loose (h : d.Mirrors d') :
    Setting.Mirrors ⟨d, options, switches⟩ ⟨d', options, switches⟩ (.loose d.loose)
      (.loose d'.loose) fun _ => True :=
  ⟨rfl, h.token?_loose, fun _ => trivial, fun _ => h.default?_loose _, fun _ => rfl⟩

theorem strict (h : d.Mirrors d') (kind : String) :
    Setting.Mirrors ⟨d, options, switches⟩ ⟨d', options, switches⟩ (.strict d.strict kind)
      (.strict d'.strict kind) fun _ => True :=
  ⟨rfl, fun name => h.token?_strict name kind, fun _ => trivial,
    fun _ => h.default?_strict kind, fun _ => rfl⟩

/-- Lexicons with the same look-ups render every text alike. -/
theorem interpolate (h : d.Mirrors d') (text : String) (switches : Switches) (options : Options) :
    interpolate text d' switches options = interpolate text d switches options := by
  have hmatches : Setting.Matches ⟨d, options, switches.merged options.overrides⟩
      ⟨d', options, switches.merged options.overrides⟩ := ⟨rfl, h.hasKind, h.loose, h.strict⟩
  exact interpolate_of_matches hmatches text

end Lexicon.Mirrors

end Inflection
