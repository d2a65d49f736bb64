import Inflection.Proofs.Lexicon.Load
import Inflection.Proofs.Render.Quiet

/-!
# The choice of a clause

The loop over the clauses of a loose or named pattern finds its kind, its selection and its
fallback on the way, and returns early.  `Setting.choice` says what it renders without a loop: by
what the clauses mention, the kind that follows from it, and the first clause that accepts the
option or lists the default.

## Main statements

* `Setting.value_renderFrom`: the loop from some clause on, by the progress made before.
* `Setting.isTrue_of_mem_mentions`, `Setting.isTrue_of_option?`: the tokens of a choice are true.
* `interpolate_choice`: every loose pattern and every named one of a known kind renders to its
  choice.
-/

namespace Inflection

/-! ## Choices without a loop -/

/-- What a value shows for a token of the given description. -/
def Value.shownFor (description? : Option String) : Value → String
  | text s => s
  | loud => description?.getD ""

theorem Value.render_singleton (description? : Option String) (value : Value) :
    value.render [description?] = value.shownFor description? := by
  cases value with
  | text s => rfl
  | loud =>
    cases description? with
    | none => rfl
    | some description =>
      show " ".intercalate [description] = description
      exact String.intercalate_singleton

/-- A clause with one group: the tokens that the group mentions, and the value. -/
structure Reading where
  mentions : List Mention
  value : Value
deriving DecidableEq, Repr

namespace Reading

/-- Whether the clause counts for a kind. -/
def isLive (kind : String) (r : Reading) : Bool := Mention.isLive kind r.mentions

/-- Whether the clause applies to an option. -/
def accepts (option : String) (r : Reading) : Bool := Mention.accepts r.mentions option

/-- Whether the clause lists a token. -/
def lists (name : String) (r : Reading) : Bool := (Mention.positives r.mentions).contains name

/-- The kind of the token that is mentioned first. -/
def firstKind? (rs : List Reading) : Option String :=
  (rs.flatMap mentions).head?.map (·.token.kind)

theorem firstKind?_cons (r : Reading) (rs : List Reading) :
    firstKind? (r :: rs) = (r.mentions.head?.map (·.token.kind)).or (firstKind? rs) := by
  rw [firstKind?, List.flatMap_cons, List.head?_append]
  cases r.mentions.head? <;> rfl

end Reading

/-- Where the tokens of a loose pattern or of a named one of a known kind are looked up. -/
def Pattern.scope? (d : Lexicon) (p : Pattern) : Option Scope :=
  match p.target with
  | .loose => some (.loose d.loose)
  | .named kind => if d.strict.hasKind kind then some (.strict d.strict kind) else none
  | _ => none

theorem Pattern.scope?_eq_some_iff {d : Lexicon} {p : Pattern} {scope : Scope} :
    p.scope? d = some scope ↔ (p.target = .loose ∧ scope = .loose d.loose) ∨
      ∃ kind, p.target = .named kind ∧ d.strict.hasKind kind ∧ scope = .strict d.strict kind := by
  refine ⟨?_, ?_⟩
  · intro h
    unfold scope? at h
    split at h
    case h_1 htarget => exact .inl ⟨htarget, (Option.some.inj h).symm⟩
    case h_2 kind htarget =>
      split at h
      case isTrue hkind => exact .inr ⟨kind, htarget, hkind, (Option.some.inj h).symm⟩
      case isFalse => cases h
    case h_3 => cases h
  · rintro (⟨htarget, rfl⟩ | ⟨kind, htarget, hkind, rfl⟩)
    · rw [scope?, htarget]
    · rw [scope?, htarget]
      exact if_pos hkind

namespace Setting

/-- The clauses with one group. -/
def readings (c : Setting) (scope : Scope) (clauses : List Clause) : List Reading :=
  clauses.filterMap fun clause =>
    match clause.groups with
    | [group] => some ⟨c.mentions scope group, clause.value⟩
    | _ => none

/-- What the first clause that accepts an option shows for it. -/
def accepted? (scope : Scope) (option : String) (live : List Reading) : Option String :=
  (live.find? (·.accepts option)).map (·.value.shownFor (scope.description? option))

/-- What the first clause that lists the default shows for it, if it may stand in for an option that
no clause accepts. -/
def excluded? (c : Setting) (scope : Scope) (kind : String) (live : List Reading) :
    Option String :=
  if c.switches.excludedDefaults then
    (scope.default? kind).bind fun name =>
      (live.find? (·.lists name)).map (·.value.shownFor (scope.description? name))
  else none

/-- What is chosen among the clauses that count for a kind. -/
def chosen? (c : Setting) (scope : Scope) (kind : String) (live : List Reading) : Option String :=
  (c.option? scope kind).bind fun option =>
    (accepted? scope option live).or (c.excluded? scope kind live)

/-- What a loose or named pattern renders to. -/
def choice (c : Setting) (scope : Scope) (p : Pattern) : String :=
  let readings := c.readings scope p.clauses
  let chosen? := (scope.kind?.or (Reading.firstKind? readings)).bind fun kind =>
    c.chosen? scope kind (readings.filter (·.isLive kind))
  chosen?.getD p.freeText

variable {c : Setting} {p : Pattern} {scope : Scope}

theorem readings_cons_of_group {clause : Clause} {group : Group} (h : clause.groups = [group])
    (clauses : List Clause) :
    c.readings scope (clause :: clauses) =
      ⟨c.mentions scope group, clause.value⟩ :: c.readings scope clauses := by
  rw [readings, List.filterMap_cons, h]
  rfl

theorem readings_cons_of_ne {clause : Clause} (h : ∀ group, clause.groups ≠ [group])
    (clauses : List Clause) :
    c.readings scope (clause :: clauses) = c.readings scope clauses := by
  rw [readings, List.filterMap_cons]
  split
  case h_1 => rfl
  case h_2 hsome =>
    split at hsome
    case h_1 group hgroup => exact absurd hgroup (h group)
    case h_2 => cases hsome

/-! ## The loop -/

/-- What is chosen when the clauses before gave a fallback. -/
def chosenAfter? (c : Setting) (scope : Scope) (kind : String)
    (fallback? : Option (Value × String)) (live : List Reading) : Option String :=
  (c.option? scope kind).bind fun option =>
    (accepted? scope option live).or
      ((fallback?.map fun f => f.1.shownFor (scope.description? f.2)).or
        (c.excluded? scope kind live))

/-- Without clauses left the fallback is chosen, if there is an option. -/
theorem chosenAfter?_nil (kind : String) (fallback? : Option (Value × String)) :
    c.chosenAfter? scope kind fallback? [] = (c.option? scope kind).bind fun _ =>
      fallback?.map fun f => f.1.shownFor (scope.description? f.2) := by
  have hexcluded : c.excluded? scope kind [] = none := by
    unfold excluded?
    split
    · cases scope.default? kind <;> rfl
    · rfl
  unfold chosenAfter?
  rw [hexcluded]
  simp only [Option.or_none]
  rfl

theorem chosenAfter?_of_accepts {kind option : String} {r : Reading}
    (hoption : c.option? scope kind = some option) (h : r.accepts option)
    (fallback? : Option (Value × String)) (live : List Reading) :
    c.chosenAfter? scope kind fallback? (r :: live) =
      some (r.value.shownFor (scope.description? option)) := by
  rw [chosenAfter?, hoption, Option.bind_some, accepted?, List.find?_cons_of_pos h]
  rfl

/-- A clause that does not apply gives the fallback if it is the first to list the default. -/
theorem excluded?_cons (kind : String) (r : Reading) (live : List Reading) (token? : Option String)
    (fallback? : Option (Value × String)) :
    (fallback?.map fun f => f.1.shownFor (scope.description? f.2)).or
        (c.excluded? scope kind (r :: live)) =
      ((c.nextFallback ⟨token?, scope.default? kind⟩ (Mention.tokens r.mentions) r.value
        fallback?).map fun f => f.1.shownFor (scope.description? f.2)).or
        (c.excluded? scope kind live) := by
  unfold nextFallback excluded?
  cases fallback? with
  | some f =>
    rw [Option.isNone_some, Bool.and_false, if_neg Bool.false_ne_true]
    rfl
  | none =>
    rw [Option.isNone_none, Bool.and_true]
    split
    case isFalse => rfl
    case isTrue =>
      cases scope.default? kind with
      | none => rfl
      | some name =>
        have htokens : (Mention.tokens r.mentions).contains name = r.lists name := rfl
        rw [Option.bind_some, Option.bind_some, Option.filter_some, htokens]
        by_cases hlists : r.lists name
        · rw [List.find?_cons_of_pos hlists, if_pos hlists]
          rfl
        · rw [List.find?_cons_of_neg hlists, if_neg hlists]
          rfl

theorem chosenAfter?_of_not_accepts {kind : String} {r : Reading}
    (h : ∀ option, c.option? scope kind = some option → r.accepts option = false)
    (fallback? : Option (Value × String)) (live : List Reading) :
    c.chosenAfter? scope kind fallback? (r :: live) =
      c.chosenAfter? scope kind
        (c.nextFallback ⟨c.option? scope kind, scope.default? kind⟩ (Mention.tokens r.mentions)
          r.value fallback?) live := by
  unfold chosenAfter?
  rw [excluded?_cons kind r live (c.option? scope kind) fallback?]
  cases hoption : c.option? scope kind with
  | none => rfl
  | some option =>
    rw [Option.bind_some, Option.bind_some, accepted?,
      List.find?_cons_of_neg (by rw [h option hoption]; exact Bool.false_ne_true)]
    rfl

/-- What is known after some clauses: a selection is the one for the kind, and without a selection
there is no fallback. -/
structure Known (c : Setting) (scope : Scope) (s : Progress) : Prop where
  selection : ∀ {selection}, s.selection? = some selection →
    ∃ kind, s.kind? = some kind ∧ selection = ⟨c.option? scope kind, scope.default? kind⟩
  fallback : s.selection? = none → s.fallback? = none

/-- What the loop ends with after the last clause. -/
theorem renderRest_eq {s : Progress} (hs : c.Known scope s) :
    renderRest p scope s =
      (s.kind?.bind fun kind => c.chosenAfter? scope kind s.fallback? []).getD p.freeText := by
  obtain ⟨kind?, selection?, fallback?⟩ := s
  unfold renderRest
  simp only [chosenAfter?_nil]
  cases selection? with
  | none =>
    obtain rfl : fallback? = none := hs.fallback rfl
    cases kind? with
    | none => rfl
    | some kind =>
      rw [Option.bind_some]
      cases c.option? scope kind <;> rfl
  | some selection =>
    obtain ⟨kind, hkind, rfl⟩ := hs.selection rfl
    obtain rfl : kind? = some kind := hkind
    rw [Option.bind_some]
    cases c.option? scope kind with
    | none => rfl
    | some option =>
      cases fallback? with
      | none => rfl
      | some f => exact Value.render_singleton _ _

/-- A clause that counts for the kind either is chosen or leaves the choice to the others. -/
theorem value_renderGroup_of_live {clauses : List Clause} {s : Progress} {kind : String}
    {value : Value} {ms : List Mention} (hs : c.Known scope s)
    (hkind : ∀ k, s.kind? = some k → k = kind)
    (ih : ∀ s', c.Known scope s' → s'.kind? = some kind →
      (c.renderFrom p scope clauses s' : Report String).value =
        (c.chosenAfter? scope kind s'.fallback?
          ((c.readings scope clauses).filter (·.isLive kind))).getD p.freeText) :
    (c.renderGroup p scope value clauses s (some kind, some (Mention.tokens ms)) :
        Report String).value =
      (c.chosenAfter? scope kind s.fallback?
        (⟨ms, value⟩ :: (c.readings scope clauses).filter (·.isLive kind))).getD p.freeText := by
  have hselected : (c.selected p scope kind s.selection? : Report Selection).value =
      ⟨c.option? scope kind, scope.default? kind⟩ := by
    cases hsel : s.selection? with
    | none => exact value_select kind
    | some selection =>
      obtain ⟨k, hk, rfl⟩ := hs.selection hsel
      rw [hkind k hk]
      rfl
  have haccepts (option : String) : (Mention.tokens ms).accepts option =
      Reading.accepts option ⟨ms, value⟩ := Mention.accepts_tokens ms option
  show (c.renderChoice p scope value clauses kind (Mention.tokens ms) s.fallback?
    (c.selected p scope kind s.selection? : Report Selection).value : Report String).value = _
  rw [hselected, renderChoice]
  split
  case h_1 option hoption =>
    obtain ⟨hoption, haccepted⟩ := Option.filter_eq_some_iff.1 hoption
    rw [haccepts] at haccepted
    rw [chosenAfter?_of_accepts hoption haccepted, Report.value_pure, Value.render_singleton]
    rfl
  case h_2 hnone =>
    have hrejects (option : String) (hoption : c.option? scope kind = some option) :
        Reading.accepts option ⟨ms, value⟩ = false := by
      rw [← haccepts, ← Bool.not_eq_true]
      intro haccepted
      rw [hoption, Option.filter_some, if_pos haccepted] at hnone
      cases hnone
    rw [chosenAfter?_of_not_accepts hrejects]
    refine ih _ ⟨?_, ?_⟩ rfl
    · intro selection hselection
      cases hselection
      exact ⟨kind, rfl, rfl⟩
    · intro hselection
      cases hselection

/-- The loop from some clause on.  The kind is the one known before, or else the kind of the first
token that the clauses mention. -/
theorem value_renderFrom (clauses : List Clause) {s : Progress} (hs : c.Known scope s) :
    (c.renderFrom p scope clauses s : Report String).value =
      let readings := c.readings scope clauses
      ((s.kind?.or (Reading.firstKind? readings)).bind fun kind =>
        c.chosenAfter? scope kind s.fallback? (readings.filter (·.isLive kind))).getD
          p.freeText := by
  dsimp only
  induction clauses generalizing s with
  | nil =>
    show renderRest p scope s = ((s.kind?.or none).bind _).getD _
    rw [Option.or_none, renderRest_eq hs]
    rfl
  | cons clause clauses ih =>
    rcases clause.groups_cases with ⟨group, hgroup⟩ | hne
    · rw [renderFrom_of_group hgroup, readings_cons_of_group hgroup, Report.value_bind,
        value_resolveGroup, Reading.firstKind?_cons, ← Option.or_assoc]
      dsimp only
      generalize c.mentions scope group = ms
      have hkeeps (k : String) (hk : s.kind? = some k) :
          s.kind?.or (ms.head?.map (·.token.kind)) = some k := by
        rw [hk]
        rfl
      cases hkind : s.kind?.or (ms.head?.map (·.token.kind)) with
      | none =>
        -- No token is mentioned up to here, so the clause counts for no kind.
        obtain ⟨hnone, hhead⟩ := Option.or_eq_none_iff.1 hkind
        obtain rfl : ms = [] := List.head?_eq_none_iff.1 (Option.map_eq_none_iff.1 hhead)
        show (c.renderFrom p scope clauses { s with kind? := none } : Report String).value = _
        rw [← hnone]
        exact ih hs
      | some kind =>
        rw [Option.bind_some]
        -- From here on the kind is fixed, also by a clause that does not count.
        have hsame (k : String) (hk : s.kind? = some k) : k = kind :=
          Option.some.inj ((hkeeps k hk).symm.trans hkind)
        by_cases hlive : Mention.isLive kind ms
        · have hreading : Reading.isLive kind ⟨ms, clause.value⟩ := hlive
          rw [if_pos hlive, Option.some_or, Option.bind_some, List.filter_cons_of_pos hreading]
          refine value_renderGroup_of_live hs hsame ?_
          intro s' hs' hk
          rw [ih hs', hk]
          rfl
        · have hreading : ¬Reading.isLive kind ⟨ms, clause.value⟩ := hlive
          rw [if_neg hlive, Option.some_or, Option.bind_some, List.filter_cons_of_neg hreading]
          show (c.renderFrom p scope clauses { s with kind? := some kind } : Report _).value = _
          refine ih ⟨?_, hs.fallback⟩
          intro selection hselection
          obtain ⟨k, hk, heq⟩ := hs.selection hselection
          exact ⟨kind, rfl, hsame k hk ▸ heq⟩
    · rw [renderFrom_of_ne hne, readings_cons_of_ne hne, Report.value_bind]
      exact ih hs

/-- A loose or named pattern renders to its choice. -/
theorem value_renderSingle :
    (c.renderSingle p scope : Report String).value = c.choice scope p := by
  have hs : c.Known scope ⟨scope.kind?, none, none⟩ := by
    refine ⟨?_, fun _ => rfl⟩
    intro selection hselection
    cases hselection
  rw [renderSingle, value_renderFrom p.clauses hs]
  rfl

theorem renderPattern_of_scope? {m : Type → Type} [Monad m] [MonadFault m]
    (h : p.scope? c.lexicon = some scope) :
    (c.renderPattern p : m String) = c.renderSingle p scope := by
  unfold renderPattern
  rcases Pattern.scope?_eq_some_iff.1 h with ⟨htarget, rfl⟩ | ⟨kind, htarget, hkind, rfl⟩
  · rw [htarget]
  · rw [htarget]
    dsimp only
    rw [if_pos hkind]

theorem rendered_of_scope? (h : p.scope? c.lexicon = some scope) :
    c.rendered p = (c.renderSingle p scope : Report String).value :=
  congrArg Report.value (renderPattern_of_scope? h)

/-! ## True tokens -/

/-- The tokens that a group mentions are true ones. -/
theorem isTrue_of_mem_mentions (hs : scope.WellFormed) {g : Group} {m : Mention}
    (hm : m ∈ c.mentions scope g) : scope.IsTrue m.token.kind m.token.name := by
  obtain ⟨member, -, hmember⟩ := List.mem_filterMap.1 hm
  obtain ⟨t, ht, rfl⟩ := Option.map_eq_some_iff.1 hmember
  exact isTrue_of_lookUp hs ((lookUp_eq member.name).trans ht)

/-- The option of a kind is a true token of it. -/
theorem isTrue_of_option? (hs : scope.WellFormed) {kind option : String}
    (hkind : scope.kind?.getD kind = kind) (h : c.option? scope kind = some option) :
    scope.IsTrue kind option := by
  rcases Option.or_eq_some_iff.1 h with h | ⟨-, h⟩
  · obtain ⟨requested, -, h⟩ := Option.bind_eq_some_iff.1 h
    exact hs.isTrue_of_trueToken? h
  · split at h
    · exact hs.default hkind h
    · cases h

end Setting

theorem Pattern.wellFormed_of_scope? {d : Lexicon} (hd : d.Built) {p : Pattern} {scope : Scope}
    (h : p.scope? d = some scope) : scope.WellFormed := by
  rcases scope?_eq_some_iff.1 h with ⟨-, rfl⟩ | ⟨kind, -, -, rfl⟩
  · exact Scope.wellFormed_loose hd
  · exact Scope.wellFormed_strict hd kind

/-- Without `raises` a text renders to what its segments render to, where every loose pattern and
every named one of a known kind renders to its choice.  The tokens that it is chosen by, those
mentioned as well as the option, are true tokens of their kinds. -/
theorem interpolate_choice {text : String} {d : Lexicon} {switches : Switches} {options : Options}
    (hd : d.Reachable) (hquiet : (switches.merged options.overrides).raises = false) :
    let c : Setting := ⟨d, options, switches.merged options.overrides⟩
    interpolate text d switches options = .ok (String.join ((scan text).map c.shown)) ∧
      ∀ p scope, p.scope? d = some scope →
        c.rendered p = c.choice scope p ∧
        (∀ g, ∀ m ∈ c.mentions scope g, scope.IsTrue m.token.kind m.token.name) ∧
        ∀ kind option, scope.kind?.getD kind = kind → c.option? scope kind = some option →
          scope.IsTrue kind option := by
  intro c
  refine ⟨interpolate_eq_join hquiet, ?_⟩
  intro p scope hscope
  have hs : scope.WellFormed := Pattern.wellFormed_of_scope? hd.toBuilt hscope
  refine ⟨?_, fun g m hm => Setting.isTrue_of_mem_mentions hs hm, ?_⟩
  · rw [Setting.rendered_of_scope? hscope, Setting.value_renderSingle]
  · intro kind option hkind hoption
    exact Setting.isTrue_of_option? hs hkind hoption

/-- No clause applies to the option `m`, so the one that lists the default stands in. -/
theorem interpolate_choice_excluded :
    let d : Lexicon := ⟨"en", (LooseStore.empty "en").attemptAll
      [.addToken "f" "gender" "female", .addToken "m" "gender" "male", .setDefault "gender" "f"],
      .empty "en"⟩
    let switches : Switches := Switches.standard.set .excludedDefaults true
    let options : Options := Options.empty.insertIfValid "gender" "m"
    d.Reachable ∧ (switches.merged options.overrides).raises = false ∧
      interpolate "Dear @{f:~|friend}!" d switches options = .ok "Dear female!" := by
  intro d switches options
  have hd : d.Reachable := .built ⟨⟨"en", _, rfl⟩, ⟨"en", [], rfl⟩⟩
  have hquiet : (switches.merged options.overrides).raises = false := by decide +kernel
  have hchoice := @interpolate_choice "Dear @{f:~|friend}!" d switches options hd hquiet
  refine ⟨hd, hquiet, ?_⟩
  let p : Pattern :=
    ⟨"@{f:~|friend}", .loose, [.choice [⟨[⟨"f", false⟩]⟩] .loud], some "friend"⟩
  have hscan : scan "Dear @{f:~|friend}!" = [.literal "Dear ", .pattern p, .literal "!"] := by
    decide +kernel
  have hshown : (⟨d, options, switches.merged options.overrides⟩ : Setting).choice
      (.loose d.loose) p = "female" := by
    decide +kernel
  have hrendered := (hchoice.2 p (.loose d.loose) rfl).1.trans hshown
  rw [hchoice.1, hscan]
  simp only [List.map_cons, List.map_nil, Setting.shown, hrendered]
  rfl

end Inflection
