import Inflection.Proofs.Pattern.RoundTrip
import Inflection.Proofs.Render.Outcome

/-!
# The switches of the defaults

Defaults stand in for what is missing and never for what is there.  A clause that is chosen is
chosen for a selected token, or for the default of a kind with a selected token, so a selection that
only `unknownDefaults` makes has no part in it; and the clause of an excluded default comes after
all clauses that apply by themselves.  So turning on either switch changes nothing where a clause is
rendered, and can only put a clause in the place of a free text.

## Main statements

* `Setting.DefaultsOn.outcome?`: what clauses give without the switches, they give with them.
* `Pattern.rendersClause_iff`: a pattern renders a clause if its clauses give anything.
* `interpolate_of_defaultsOn`: turning on the switches changes no pattern that renders a clause.
-/

namespace Inflection

/-- Switches are others with `unknownDefaults` or `excludedDefaults` turned on, or both. -/
structure Switches.DefaultsOn (s s' : Switches) : Prop where
  raises : s'.raises = s.raises
  aliasedPatterns : s'.aliasedPatterns = s.aliasedPatterns
  unknownDefaults : s.unknownDefaults → s'.unknownDefaults
  excludedDefaults : s.excludedDefaults → s'.excludedDefaults

namespace Setting

/-- The same data are read for the same requests, with defaults turned on. -/
structure DefaultsOn (c c' : Setting) : Prop where
  lexicon : c'.lexicon = c.lexicon
  requested? : ∀ kind strict, c'.options.requested? kind strict = c.options.requested? kind strict
  switches : c.switches.DefaultsOn c'.switches

variable {c : Setting} {scope : Scope} {kind : String}

theorem exists_option?_of_found? {g : Group} {name : String} (h : c.found? kind g = some name) :
    ∃ option, c.option? (.strict c.lexicon.strict kind) kind = some option := by
  obtain ⟨tokens, -, h⟩ := Option.bind_eq_some_iff.1 h
  obtain ⟨option, hoption, -⟩ := Option.bind_eq_some_iff.1 h
  exact ⟨option, hoption⟩

/-- A clause of a complex pattern is chosen for a selected token of each kind. -/
theorem exists_option?_of_matched? {b : Bool} {kinds : List String} {clause : Clause} {s : String}
    (h : c.matched? b kinds clause = some s) (hkind : kind ∈ kinds) :
    ∃ option, c.option? (.strict c.lexicon.strict kind) kind = some option := by
  rw [matched?, clauseTokens?_bind_matchGroups] at h
  obtain ⟨found, hfound, -⟩ := Option.map_eq_some_iff.1 h
  unfold clauseFound? at hfound
  split at hfound
  case isFalse => cases hfound
  case isTrue hlen =>
    generalize clause.groups = groups at hfound hlen
    clear h
    induction kinds generalizing groups found with
    | nil => cases hkind
    | cons kind' kinds ih =>
      cases groups with
      | nil => cases hlen
      | cons g groups =>
        rw [List.zip_cons_cons, mapM_cons_eq_bind] at hfound
        obtain ⟨name, hname, hfound⟩ := Option.bind_eq_some_iff.1 hfound
        obtain ⟨names, hnames, -⟩ := Option.map_eq_some_iff.1 hfound
        rcases List.mem_cons.1 hkind with rfl | hkind
        · exact exists_option?_of_found? (c := c.withExcluded b) hname
        · exact ih hkind names groups hnames (Nat.succ.inj hlen)

namespace DefaultsOn

variable {c' : Setting} {s : String}

theorem mentions (h : c.DefaultsOn c') (scope : Scope) (g : Group) :
    c'.mentions scope g = c.mentions scope g := by
  unfold Setting.mentions mentioned?
  rw [h.switches.aliasedPatterns]

theorem readings (h : c.DefaultsOn c') (scope : Scope) (clauses : List Clause) :
    c'.readings scope clauses = c.readings scope clauses := by
  unfold Setting.readings
  simp only [h.mentions]

/-- A selected token stays selected. -/
theorem option? (h : c.DefaultsOn c') {option : String} (hs : c.option? scope kind = some option) :
    c'.option? scope kind = some option := by
  rw [Setting.option?, h.requested?]
  rcases Option.or_eq_some_iff.1 hs with hrequested | ⟨hnone, hdefault⟩
  · rw [hrequested, Option.some_or]
  · split at hdefault
    case isTrue hon => rw [hnone, Option.none_or, if_pos (h.switches.unknownDefaults hon), hdefault]
    case isFalse => cases hdefault

theorem excluded? (h : c.DefaultsOn c') {live : List Reading}
    (hs : c.excluded? scope kind live = some s) : c'.excluded? scope kind live = some s := by
  unfold Setting.excluded? at hs ⊢
  split at hs
  case isTrue hon => rw [if_pos (h.switches.excludedDefaults hon), hs]
  case isFalse => cases hs

theorem chosen? (h : c.DefaultsOn c') {live : List Reading}
    (hs : c.chosen? scope kind live = some s) : c'.chosen? scope kind live = some s := by
  obtain ⟨option, hoption, hs⟩ := Option.bind_eq_some_iff.1 hs
  rw [Setting.chosen?, h.option? hoption, Option.bind_some]
  rcases Option.or_eq_some_iff.1 hs with haccepted | ⟨hnone, hexcluded⟩
  · rw [haccepted, Option.some_or]
  · rw [hnone, Option.none_or, h.excluded? hexcluded]

theorem singleOutcome? (h : c.DefaultsOn c') {clauses : List Clause}
    (hs : c.singleOutcome? scope clauses = some s) :
    c'.singleOutcome? scope clauses = some s := by
  obtain ⟨kind, hkind, hs⟩ := Option.bind_eq_some_iff.1 hs
  rw [Setting.singleOutcome?, h.readings, hkind, Option.bind_some]
  exact h.chosen? hs

/-- Where each kind has a selected token, clauses match the same tokens. -/
theorem matched? (h : c.DefaultsOn c') {kinds : List String}
    (hkinds : ∀ kind ∈ kinds, ∃ option,
      c.option? (.strict c.lexicon.strict kind) kind = some option) (b : Bool) :
    c'.matched? b kinds = c.matched? b kinds := by
  have hselections : kinds.map c'.selection = kinds.map c.selection := by
    refine List.map_congr_left ?_
    intro kind hkind
    obtain ⟨option, hoption⟩ := hkinds kind hkind
    rw [selection, selection, h.lexicon, hoption, h.option? hoption]
  have htokens (clause : Clause) :
      c'.clauseTokens? kinds clause = c.clauseTokens? kinds clause := by
    unfold clauseTokens? tokens?
    simp only [h.lexicon, h.mentions]
  funext clause
  rw [Setting.matched?, Setting.matched?, hselections, htokens, h.lexicon]

theorem complexOutcome? (h : c.DefaultsOn c') {kinds : List String} {clauses : List Clause}
    (hs : c.complexOutcome? kinds clauses = some s) :
    c'.complexOutcome? kinds clauses = some s := by
  -- Some clause matches in one of the two passes, so each kind has a selected token.
  have hmatched : ∃ b clause, c.matched? b kinds clause = some s := by
    rcases Option.or_eq_some_iff.1 hs with hfirst | ⟨-, hsecond⟩
    · obtain ⟨clause, -, hclause⟩ := List.exists_of_findSome?_eq_some hfirst
      exact ⟨false, clause, hclause⟩
    · split at hsecond
      · obtain ⟨clause, -, hclause⟩ := List.exists_of_findSome?_eq_some hsecond
        exact ⟨true, clause, hclause⟩
      · cases hsecond
  obtain ⟨b, clause, hclause⟩ := hmatched
  have hkinds (kind : String) (hkind : kind ∈ kinds) := exists_option?_of_matched? hclause hkind
  rw [Setting.complexOutcome?, h.matched? hkinds, h.matched? hkinds]
  rcases Option.or_eq_some_iff.1 hs with hfirst | ⟨hnone, hsecond⟩
  · rw [hfirst, Option.some_or]
  · split at hsecond
    case isTrue hon =>
      rw [hnone, Option.none_or, if_pos (h.switches.excludedDefaults hon), hsecond]
    case isFalse => cases hsecond

/-- What clauses give without the switches of the defaults, they give with them. -/
theorem outcome? (h : c.DefaultsOn c') {clauses : List Clause} {target : Target}
    (hs : c.outcome? clauses target = some s) : c'.outcome? clauses target = some s := by
  unfold Setting.outcome? at hs ⊢
  rw [h.lexicon]
  cases target with
  | loose => exact h.singleOutcome? hs
  | named kind =>
    dsimp only at hs ⊢
    split at hs
    case isTrue hkind => rw [if_pos hkind, h.singleOutcome? hs]
    case isFalse => cases hs
  | complex kinds =>
    dsimp only at hs ⊢
    split at hs
    case isTrue hkinds => rw [if_pos hkinds, h.complexOutcome? hs]
    case isFalse => cases hs
  | invalid _ => cases hs

end DefaultsOn

end Setting

/-! ## Patterns with another free text -/

/-- The pattern with another free text. -/
def Pattern.withFreeText (p : Pattern) (s : String) : Pattern := { p with freeText? := some s }

/-- Whether a pattern renders a clause: what it renders to is the same whatever free text it is
given. -/
def Pattern.RendersClause (p : Pattern) (d : Lexicon) (switches : Switches) (options : Options) :
    Prop :=
  ∀ s, (p.withFreeText s).WellFormed →
    interpolate (p.withFreeText s).written d switches options =
      interpolate p.source d switches options

/-- Whether a pattern renders its free text, whatever free text it is given, and nothing if it has
none. -/
def Pattern.RendersFreeText (p : Pattern) (d : Lexicon) (switches : Switches) (options : Options) :
    Prop :=
  interpolate p.source d switches options = .ok p.freeText ∧
    ∀ s, (p.withFreeText s).WellFormed →
      interpolate (p.withFreeText s).written d switches options = .ok s

namespace Pattern

variable {d : Lexicon} {switches : Switches} {options : Options} {p : Pattern} {text : String}

theorem WellFormed.withFreeText (h : p.WellFormed) {s : String} (hne : s ≠ "")
    (hs : ∀ c ∈ [':', '|', '}'], c ∉ s.toList) : (p.withFreeText s).WellFormed where
  target := h.target
  clauses := h.clauses
  freeText s' hs' := Option.some.inj hs' ▸ hs
  last hnone := by cases hnone
  nonempty := .inr ⟨s, rfl, hne⟩

/-- A pattern renders its free text if its clauses give nothing. -/
theorem rendersFreeText_of_none (hd : d.Reachable)
    (hquiet : (switches.merged options.overrides).raises = false) (hp : p ∈ patterns text)
    (hnone : Setting.outcome? ⟨d, options, switches.merged options.overrides⟩ p.clauses p.target =
      none) : p.RendersFreeText d switches options := by
  refine ⟨?_, ?_⟩
  · rw [interpolate_source_eq hd hquiet hp, hnone, Option.getD_none]
  · intro s hs
    rw [interpolate_written_eq hd hquiet hs]
    exact congrArg (fun o => Except.ok (Option.getD o s)) hnone

/-- A pattern renders a clause if its clauses give anything. -/
theorem rendersClause_iff (hd : d.Reachable)
    (hquiet : (switches.merged options.overrides).raises = false) (hp : p ∈ patterns text) :
    p.RendersClause d switches options ↔
      ∃ s, Setting.outcome? ⟨d, options, switches.merged options.overrides⟩ p.clauses p.target =
        some s := by
  refine ⟨?_, ?_⟩
  · intro h
    rw [← Option.ne_none_iff_exists']
    intro hnone
    have hfree := (rendersFreeText_of_none hd hquiet hp hnone).2
    have hwell := wellFormed_of_mem_patterns hp
    have ha := hwell.withFreeText (s := "a") (by decide) (by simp)
    have hb := hwell.withFreeText (s := "b") (by decide) (by simp)
    have hab : Except.ok "a" = (Except.ok "b" : Except Fault String) :=
      (hfree _ ha).symm.trans ((h _ ha).trans ((h _ hb).symm.trans (hfree _ hb)))
    exact absurd (Except.ok.inj hab) (by decide)
  · rintro ⟨s, hs⟩ s' hs'
    rw [interpolate_written_eq hd hquiet hs', interpolate_source_eq hd hquiet hp, hs]
    exact congrArg (fun o => Except.ok (Option.getD o s')) hs

end Pattern

/-- Turning on the switches of the defaults changes nothing for a pattern that renders a clause.
Where they change what a pattern renders to, it rendered its free text before, and renders a clause
with them. -/
theorem interpolate_of_defaultsOn {d : Lexicon} (hd : d.Reachable) {text : String} {p : Pattern}
    (hp : p ∈ patterns text) {switches switches' : Switches} {options options' : Options}
    (hquiet : (switches.merged options.overrides).raises = false)
    (hrequests : options'.requests = options.requests)
    (hon : Switches.DefaultsOn (switches.merged options.overrides)
      (switches'.merged options'.overrides)) :
    (p.RendersClause d switches options →
      interpolate p.source d switches' options' = interpolate p.source d switches options ∧
        p.RendersClause d switches' options') ∧
    (interpolate p.source d switches' options' ≠ interpolate p.source d switches options →
      p.RendersFreeText d switches options ∧ p.RendersClause d switches' options') := by
  have hquiet' : (switches'.merged options'.overrides).raises = false := hon.raises.trans hquiet
  have hsetting : Setting.DefaultsOn ⟨d, options, switches.merged options.overrides⟩
      ⟨d, options', switches'.merged options'.overrides⟩ := by
    refine ⟨rfl, ?_, hon⟩
    intro kind strict
    rw [Options.requested?, Options.requested?, Options.get?, Options.get?, Options.get?,
      Options.get?, hrequests]
  have hstays : p.RendersClause d switches options →
      interpolate p.source d switches' options' = interpolate p.source d switches options ∧
        p.RendersClause d switches' options' := by
    intro h
    obtain ⟨s, hs⟩ := (Pattern.rendersClause_iff hd hquiet hp).1 h
    have hs' := hsetting.outcome? hs
    refine ⟨?_, (Pattern.rendersClause_iff hd hquiet' hp).2 ⟨s, hs'⟩⟩
    rw [interpolate_source_eq hd hquiet' hp, interpolate_source_eq hd hquiet hp, hs, hs']
  refine ⟨hstays, ?_⟩
  intro hne
  cases houtcome : Setting.outcome? ⟨d, options, switches.merged options.overrides⟩ p.clauses
      p.target with
  | some s => exact absurd (hstays ((Pattern.rendersClause_iff hd hquiet hp).2 ⟨s, houtcome⟩)).1 hne
  | none =>
    refine ⟨Pattern.rendersFreeText_of_none hd hquiet hp houtcome, ?_⟩
    rw [Pattern.rendersClause_iff hd hquiet' hp, ← Option.ne_none_iff_exists']
    intro hnone
    refine hne ?_
    rw [interpolate_source_eq hd hquiet' hp, interpolate_source_eq hd hquiet hp, houtcome, hnone]

/-- With `excludedDefaults` the clause of the default stands in for the free text, and with
`unknownDefaults` as well it stays. -/
theorem interpolate_of_defaultsOn_excluded :
    let d : Lexicon := ⟨"en", (LooseStore.empty "en").attemptAll
      [.addToken "f" "gender" "female", .addToken "m" "gender" "male", .setDefault "gender" "f"],
      .empty "en"⟩
    let p : Pattern :=
      ⟨"@{f:~|friend}", .loose, [.choice [⟨[⟨"f", false⟩]⟩] .loud], some "friend"⟩
    let options : Options := Options.empty.insertIfValid "gender" "m"
    let off : Switches := .const false
    let excluded : Switches := off.set .excludedDefaults true
    let both : Switches := excluded.set .unknownDefaults true
    d.Reachable ∧ p ∈ patterns p.source ∧
      Switches.DefaultsOn (off.merged options.overrides) (excluded.merged options.overrides) ∧
      p.RendersFreeText d off options ∧ p.RendersClause d excluded options ∧
      interpolate p.source d both options = .ok "female" := by
  intro d p options off excluded both
  have hd : d.Reachable := .built ⟨⟨"en", _, rfl⟩, ⟨"en", [], rfl⟩⟩
  have hp : p ∈ patterns p.source := by decide +kernel
  have hexcluded : Switches.DefaultsOn (off.merged options.overrides)
      (excluded.merged options.overrides) := by
    constructor <;> decide +kernel
  have hboth : Switches.DefaultsOn (excluded.merged options.overrides)
      (both.merged options.overrides) := by
    constructor <;> decide +kernel
  have hquiet : (off.merged options.overrides).raises = false := by decide +kernel
  have hquiet' : (excluded.merged options.overrides).raises = false := by decide +kernel
  have hfemale : interpolate p.source d excluded options = .ok "female" := by decide +kernel
  have hchanged : interpolate p.source d excluded options ≠ interpolate p.source d off options := by
    decide +kernel
  obtain ⟨hfree, hclause⟩ := (interpolate_of_defaultsOn hd hp hquiet rfl hexcluded).2 hchanged
  refine ⟨hd, hp, hexcluded, hfree, hclause, ?_⟩
  rw [((interpolate_of_defaultsOn hd hp hquiet' rfl hboth).1 hclause).1, hfemale]

end Inflection
