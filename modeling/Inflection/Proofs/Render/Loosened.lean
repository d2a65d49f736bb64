import Inflection.Proofs.Pattern.Written
import Inflection.Proofs.Render.Mirror
import Inflection.Proofs.Store.Family

/-!
# Strict kinds as loose ones

A named pattern knows its kind beforehand, a loose one takes it from the first token that it
mentions.  Where all tokens are of one kind this makes no difference, be there no token at all in
the pattern.  So the tokens of a strict kind, put into a loose store, are read by `@{body}` just as
`@kind{body}` reads them.

## Main statements

* `Setting.resolveGroup_of_kind`, `Setting.renderFrom_of_kind`: among tokens of one kind, nothing
  depends on whether the kind is known.
* `Lexicon.loosens_slice`: the loose store of a strict kind.
* `interpolate_loosened`: named and loose patterns render alike.
-/

namespace Inflection

namespace Setting

/-! ## Tokens of one kind -/

section

variable {c : Setting} {p : Pattern} {scope : Scope} {kind : String}

/-- Among tokens of one kind, members are at fault alike whether the kind is known or not. -/
theorem faults_resolveMembers_of_kind
    (hkind : ∀ {name t}, scope.token? name = some t → t.kind = kind) (members : List Member) :
    (c.resolveMembers p scope members none : Report _).faults =
      (c.resolveMembers p scope members (some kind) : Report _).faults := by
  induction members with
  | nil => rfl
  | cons member members ih =>
    rw [resolveMembers, resolveMembers, Report.faults_bind, Report.faults_bind]
    refine congrArg _ ?_
    have hvalue : (c.resolveMember p scope member : Report _).value =
        c.mentioned? scope member.name := by
      rw [resolveMember, lookUp_eq]
      cases c.mentioned? scope member.name <;> rfl
    rw [hvalue]
    cases ht : c.mentioned? scope member.name with
    | none => exact ih
    | some t =>
      have hmem : ⟨t, false⟩ ∈ c.mentions scope ⟨[⟨member.name, false⟩]⟩ := by
        simp [mentions, ht]
      obtain ⟨name, hname⟩ := exists_token?_of_mem_mentions hmem
      obtain rfl : t.kind = kind := hkind hname
      rfl

/-- Among tokens of one kind, a group is resolved alike whether the kind is known or not, but that
a group without tokens leaves it unknown. -/
theorem resolveGroup_of_kind (hkind : ∀ {name t}, scope.token? name = some t → t.kind = kind)
    (group : Group) :
    let r : Report _ := c.resolveGroup p scope none group
    let r' : Report _ := c.resolveGroup p scope (some kind) group
    r.faults = r'.faults ∧
      (r.value = r'.value ∨ r.value = (none, none) ∧ r'.value = (some kind, none)) := by
  refine ⟨?_, ?_⟩
  · rw [resolveGroup, resolveGroup, Report.faults_bind, Report.faults_bind,
      faults_resolveMembers_of_kind hkind]
    rfl
  · rw [value_resolveGroup, value_resolveGroup]
    cases hms : c.mentions scope group with
    | nil => exact .inr ⟨rfl, rfl⟩
    | cons m ms =>
      obtain ⟨name, hname⟩ := exists_token?_of_mem_mentions (hms ▸ List.mem_cons_self)
      refine .inl ?_
      simp only [List.head?_cons, Option.map_some, hkind hname]
      rfl

/-- Among tokens of one kind, clauses render alike whether the kind is known or not. -/
theorem renderFrom_of_kind (hkind : ∀ {name t}, scope.token? name = some t → t.kind = kind)
    (clauses : List Clause) (selection? : Option Selection)
    (fallback? : Option (Value × String)) :
    (c.renderFrom p scope clauses ⟨none, selection?, fallback?⟩ : Report String) =
      c.renderFrom p scope clauses ⟨some kind, selection?, fallback?⟩ := by
  induction clauses with
  | nil => rfl
  | cons clause clauses ih =>
    rcases clause.groups_cases with ⟨group, hgroup⟩ | hne
    · rw [renderFrom_of_group hgroup, renderFrom_of_group hgroup]
      obtain ⟨hfaults, hvalue | ⟨hvalue, hvalue'⟩⟩ :=
        resolveGroup_of_kind (c := c) (p := p) hkind group
      · refine Report.bind_congr hfaults ?_
        dsimp only
        rw [hvalue]
        -- The kind is known from here on, since the group gives one.
        have hsome : ∃ k tokens?, (c.resolveGroup p scope (some kind) group : Report _).value =
            (some k, tokens?) := ⟨kind, _, value_resolveGroup group (some kind)⟩
        obtain ⟨k, tokens?, hk⟩ := hsome
        rw [hk]
        cases tokens? <;> rfl
      · refine Report.bind_congr hfaults ?_
        dsimp only
        rw [hvalue, hvalue']
        exact ih
    · rw [renderFrom_of_ne hne, renderFrom_of_ne hne, ih]

end

end Setting

/-! ## The loose store of a strict kind -/

namespace Lexicon

/-- A lexicon holds in its loose store just what another has for a strict kind, and nothing else. -/
structure Loosens (d' d : Lexicon) (kind : String) : Prop where
  token? : ∀ name, d'.loose.token? name none = d.strict.token? name kind
  default? : ∀ kind', d'.loose.default? kind' =
    if kind' = kind then d.strict.default? kind else none
  hasKind : ∀ kind', d'.loose.hasKind kind' = (kind' == kind && d.strict.hasKind kind)
  strict : d'.strict.isEmpty

variable {d d' : Lexicon} {kind : String}

/-- The slice of a strict kind is such a store. -/
theorem loosens_slice (d : Lexicon) (kind : String) :
    Loosens ⟨d.locale, d.strict.slice kind, .empty d.locale⟩ d kind where
  token? name := by
    rw [← StrictStore.get?_slice]
    exact Scope.token?_loose (d.strict.slice kind) name
  default? kind' := by
    rw [StrictStore.default?_slice]
    simp only [eq_comm]
  hasKind kind' := by
    rw [StrictStore.hasKind_slice, BEq.comm]
  strict := rfl

theorem Built.loosen (hd : d.Built) (kind : String) :
    Built ⟨d.locale, d.strict.slice kind, .empty d.locale⟩ := by
  obtain ⟨locale, rs, hrs⟩ := hd.strict
  refine ⟨⟨locale, StrictStore.registrationsIn kind rs, ?_⟩, ⟨d.locale, [], rfl⟩⟩
  rw [hrs, StrictStore.slice_attemptAll (StrictStore.wellFormed_empty locale),
    StrictStore.slice_empty]

end Lexicon

/-! ## Patterns -/

theorem Options.requested?_of_get?_none {o : Options} {kind : String}
    (h : o.get? (putMark kind) = none) : o.requested? kind true = o.requested? kind false := by
  unfold requested?
  rw [h]
  rfl

namespace Lexicon.Loosens

variable {d d' : Lexicon} {kind : String} {options : Options}

/-- Without its marked key the kind is read in the loose store as it is in the strict one. -/
theorem mirrors (h : d'.Loosens d kind) (hd : d.Built)
    (hoptions : options.get? (putMark kind) = none) (switches : Switches) :
    Setting.Mirrors ⟨d, options, switches⟩ ⟨d', options, switches⟩ (.strict d.strict kind)
      (.loose d'.loose) (· = kind) where
  switches := rfl
  token? := h.token?
  kinds ht := (Scope.wellFormed_strict hd kind).kind_eq rfl ht
  default? := by
    rintro _ rfl
    exact (h.default? _).trans (if_pos rfl)
  requested? := by
    rintro _ rfl
    exact (Options.requested?_of_get?_none hoptions).symm

theorem renderPattern (h : d'.Loosens d kind) (hd : d.Built)
    (hoptions : options.get? (putMark kind) = none) {p q : Pattern}
    (hp : p.scope? d = some (.strict d.strict kind)) (hq : q.scope? d' = some (.loose d'.loose))
    (hclauses : q.clauses = p.clauses) (hfree : q.freeText? = p.freeText?)
    (switches : Switches) :
    (Setting.renderPattern ⟨d', options, switches⟩ q : Report String) =
      Report.mapFaults (Fault.inPattern q.source)
        (Setting.renderPattern ⟨d, options, switches⟩ p) := by
  have hmirrors := h.mirrors hd hoptions switches
  have hcarries := Fault.carries_inPattern p.source q.source
  have hknown := Setting.renderFrom_of_kind (c := ⟨d, options, switches⟩) (p := p)
    hmirrors.kinds p.clauses none none
  rw [Setting.renderPattern_of_scope? (c := ⟨d, options, switches⟩) hp,
    Setting.renderPattern_of_scope? (c := ⟨d', options, switches⟩) hq, Setting.renderSingle,
    Setting.renderSingle, hclauses]
  refine (hmirrors.renderFrom hcarries hfree p.clauses ?_).trans (congrArg _ hknown)
  intro kind' hnone
  cases hnone

end Lexicon.Loosens

/-- A named pattern and a loose one with the same body render alike, if the loose tokens are those
of the kind and the options do not ask for it by its marked key: they give the same text, or fail
with the same fault of either pattern. -/
theorem interpolate_loosened {d : Lexicon} (hd : d.Reachable) {kind : String}
    (hkind : d.strict.hasKind kind) {body : String} (hbody : body ≠ "")
    (hclose : '}' ∉ body.toList) {options : Options}
    (hoptions : options.get? (putMark kind) = none) :
    (∃ d' : Lexicon, d'.Reachable ∧ d'.Loosens d kind) ∧
      ∀ d' : Lexicon, d'.Loosens d kind → ∀ switches,
        interpolate (r"@{" ++ body ++ r"}") d' switches options =
          (interpolate ("@" ++ kind ++ r"{" ++ body ++ r"}") d switches options).mapError
            (Fault.inPattern (r"@{" ++ body ++ r"}")) := by
  refine ⟨⟨_, .built (hd.toBuilt.loosen kind), d.loosens_slice kind⟩, ?_⟩
  intro d' hd' switches
  have hisBody : RawPattern.IsBody body.toList := ⟨by simpa using hbody, hclose⟩
  have hname : Target.WellFormed (.named kind) := hd.toBuilt.wellFormed_strict.valid_kind hkind
  have hp := mem_patterns_of_scan (Pattern.scan_withBody hname hisBody)
  have hq := mem_patterns_of_scan
    (Pattern.scan_withBody (show Target.loose.WellFormed from trivial) hisBody)
  have hpscope : (Pattern.withBody (.named kind) body).scope? d = some (.strict d.strict kind) :=
    Pattern.scope?_eq_some_iff.2 (.inr ⟨kind, Pattern.target_withBody hname body, hkind, rfl⟩)
  have hqscope : (Pattern.withBody .loose body).scope? d' = some (.loose d'.loose) := rfl
  have hrender := hd'.renderPattern hd.toBuilt hoptions hpscope hqscope rfl rfl
    (switches.merged options.overrides)
  have hanswer : Setting.answer ⟨d', options, switches.merged options.overrides⟩
        (.pattern (.withBody .loose body)) =
      (Setting.answer ⟨d, options, switches.merged options.overrides⟩
        (.pattern (.withBody (.named kind) body))).mapError
          (Fault.inPattern (Pattern.withBody .loose body).source) :=
    Setting.answer_of_renderPattern rfl hrender
  rw [← interpolate_source hp, ← interpolate_source hq, Pattern.source_withBody (.named kind),
    Pattern.source_withBody .loose] at hanswer
  exact hanswer

/-- The loose pattern takes its kind from `f`, which the named one knows; where there is no valid
token, both are at fault. -/
theorem interpolate_loosened_gender :
    let d : Lexicon := ⟨"en", .empty "en", (StrictStore.empty "en").attemptAll
      [.addToken "f" "gender" "female", .addToken "m" "gender" "male", .setDefault "gender" "f"]⟩
    let d' : Lexicon := ⟨"en", d.strict.slice "gender", .empty "en"⟩
    let options : Options := Options.empty.insertIfValid "gender" "m"
    d.Reachable ∧ d'.Loosens d "gender" ∧
      interpolate "@gender{f:she|m:he}" d Switches.standard options = .ok "he" ∧
      interpolate "@{f:she|m:he}" d' Switches.standard options = .ok "he" ∧
      interpolate "@{x:y}" d' (Switches.standard.set .raises true) options =
        .error (.invalidToken "@{x:y}" "x") := by
  intro d d' options
  have hd : d.Reachable := .built ⟨⟨"en", [], rfl⟩, ⟨"en", _, rfl⟩⟩
  have hd' : d'.Loosens d "gender" := d.loosens_slice "gender"
  have hkind : d.strict.hasKind "gender" := by decide +kernel
  have hget : options.get? (putMark "gender") = none := by decide +kernel
  have hnamed : interpolate "@gender{f:she|m:he}" d Switches.standard options =
      .ok "he" := by
    decide +kernel
  have hfault : interpolate "@gender{x:y}" d (Switches.standard.set .raises true) options =
      .error (.invalidToken "@gender{x:y}" "x") := by
    decide +kernel
  have hloose (body : String) (hbody : body ≠ "") (hclose : '}' ∉ body.toList) :=
    (interpolate_loosened hd hkind hbody hclose hget).2 d' hd'
  refine ⟨hd, hd', hnamed, ?_, ?_⟩
  · refine (hloose "f:she|m:he" (by decide) (by decide) Switches.standard).trans ?_
    exact congrArg (Except.mapError _) hnamed
  · refine (hloose "x:y" (by decide) (by decide) _).trans ?_
    exact congrArg (Except.mapError _) hfault

end Inflection
