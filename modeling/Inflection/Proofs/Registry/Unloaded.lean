import Inflection.Proofs.Pattern.RoundTrip
import Inflection.Proofs.Render.Outcome
import Inflection.Registry

/-!
# Locales without data

A locale that a registry has no data of is read as an empty lexicon, where no name is a token and
no kind is known.  So no clause of a pattern is ever chosen, no option and no default is ever asked
for, and a pattern is at fault by what is written first in it.

## Main statements

* `Setting.rendered_eq_freeText`: without data a pattern renders to its free text.
* `Setting.renderPattern_of_objects`: the fault that is raised for a pattern.
* `mapM_answer_eq_error_iff`: segments fail as the first of their patterns that fails.
* `Registry.interpolate_unloaded`: what a text renders to, or how it fails, in a locale without
  data.
-/

namespace Inflection

/-! ## Free texts -/

/-- The text of a literal, and the free text of a pattern. -/
def Segment.freeText : Segment → String
  | literal s => s
  | pattern p => p.freeText

/-- The text with its free texts in place of the patterns. -/
def freeRendering (text : String) : String := String.join ((scan text).map Segment.freeText)

namespace Pattern

/-- A loose pattern of a free text alone. -/
structure IsFree (p : Pattern) : Prop where
  target : p.target = .loose
  clauses : p.clauses = []
  freeText : p.freeText?.isSome

instance : DecidablePred IsFree := fun p =>
  decidable_of_iff (p.target = .loose ∧ p.clauses = [] ∧ p.freeText?.isSome)
    ⟨fun ⟨htarget, hclauses, hfree⟩ => ⟨htarget, hclauses, hfree⟩,
      fun ⟨htarget, hclauses, hfree⟩ => ⟨htarget, hclauses, hfree⟩⟩

/-- The fault of a pattern whose locale has no data: a kind that is named is unknown, the first of
several as well, and a text that is no kind is none; the first clause of a loose pattern mentions
no token by its first member, and is not read at all unless it has one group. -/
inductive Objects (p : Pattern) : Fault → Prop
  | named {kind : String} (htarget : p.target = .named kind) :
      Objects p (.invalidKind p.source kind)
  | complex {kind : String} {kinds : List String} (htarget : p.target = .complex (kind :: kinds)) :
      Objects p (.invalidKind p.source kind)
  | invalid {text : String} (htarget : p.target = .invalid text) :
      Objects p (.invalidKind p.source text)
  | member {clause : Clause} {clauses : List Clause} {member : Member} {members : List Member}
      (htarget : p.target = .loose) (hclauses : p.clauses = clause :: clauses)
      (hgroups : clause.groups = [⟨member :: members⟩]) :
      Objects p (.invalidToken p.source member.text)
  | groups {clause : Clause} {clauses : List Clause} (htarget : p.target = .loose)
      (hclauses : p.clauses = clause :: clauses) (hgroups : ∀ group, clause.groups ≠ [group]) :
      Objects p (.invalidToken p.source clause.tokens)

theorem Objects.not_isFree {p : Pattern} {f : Fault} (h : p.Objects f) : ¬p.IsFree := by
  rintro ⟨htarget', hclauses', -⟩
  cases h with
  | named htarget => cases htarget.symm.trans htarget'
  | complex htarget => cases htarget.symm.trans htarget'
  | invalid htarget => cases htarget.symm.trans htarget'
  | member _ hclauses => cases hclauses.symm.trans hclauses'
  | groups _ hclauses => cases hclauses.symm.trans hclauses'

theorem WellFormed.exists_kind {p : Pattern} (hp : p.WellFormed) {kinds : List String}
    (htarget : p.target = .complex kinds) : ∃ kind rest, kinds = kind :: rest := by
  have hlength : 2 ≤ kinds.length := (htarget ▸ hp.target : (Target.complex kinds).WellFormed).1
  exact List.exists_cons_of_length_pos (by omega)

/-- A pattern that is read from a text has a fault, unless it is of a free text alone. -/
theorem WellFormed.isFree_or_objects {p : Pattern} (hp : p.WellFormed) :
    p.IsFree ∨ ∃ f, p.Objects f := by
  cases htarget : p.target with
  | loose =>
    cases hclauses : p.clauses with
    | nil =>
      obtain ⟨s, hs, -⟩ := hp.nonempty.resolve_left (· hclauses)
      exact .inl ⟨htarget, hclauses, hs ▸ rfl⟩
    | cons clause clauses =>
      rcases clause.groups_cases with ⟨⟨members⟩, hgroup⟩ | hne
      · have hmem : (⟨members⟩ : Group) ∈ clause.groups := hgroup ▸ List.mem_cons_self
        have hwell := hp.clauses clause (hclauses ▸ List.mem_cons_self)
        cases clause with
        | bare s => cases hgroup
        | choice gs v =>
          obtain ⟨member, members, rfl⟩ := List.exists_cons_of_ne_nil (hwell.2.1 _ hmem).nonempty
          exact .inr ⟨_, .member htarget hclauses hgroup⟩
      · exact .inr ⟨_, .groups htarget hclauses hne⟩
  | named kind => exact .inr ⟨_, .named htarget⟩
  | complex kinds =>
    obtain ⟨kind, kinds, rfl⟩ := hp.exists_kind htarget
    exact .inr ⟨_, .complex htarget⟩
  | invalid s => exact .inr ⟨_, .invalid htarget⟩

end Pattern

/-! ## Patterns without data -/

namespace Setting

variable {c : Setting} {p : Pattern} {locale : String}

theorem not_hasKind_empty (kind : String) : ¬(Lexicon.empty locale).strict.hasKind kind :=
  Bool.false_ne_true

theorem readings_empty (clauses : List Clause) :
    Reading.firstKind? (c.readings (.loose (.empty locale)) clauses) = none := by
  have hmentions (g : Group) : c.mentions (.loose (.empty locale)) g = [] :=
    List.filterMap_eq_nil_iff.2 fun _ _ => rfl
  induction clauses with
  | nil => rfl
  | cons clause clauses ih =>
    rcases clause.groups_cases with ⟨group, hgroup⟩ | hne
    · rw [readings_cons_of_group hgroup, Reading.firstKind?_cons, hmentions]
      exact ih
    · rwa [readings_cons_of_ne hne]

/-- Without data a pattern renders to its free text. -/
theorem rendered_eq_freeText (hc : c.lexicon = .empty locale) (hp : p.WellFormed) :
    c.rendered p = p.freeText := by
  have hnone : c.outcome? p.clauses p.target = none := by
    cases htarget : p.target with
    | loose =>
      rw [outcome?, singleOutcome?, hc]
      simp only [Lexicon.empty, readings_empty]
      rfl
    | named kind =>
      rw [outcome?, hc]
      exact if_neg (not_hasKind_empty kind)
    | complex kinds =>
      rw [outcome?, hc]
      refine if_neg ?_
      obtain ⟨kind, kinds, rfl⟩ := hp.exists_kind htarget
      exact fun h => not_hasKind_empty kind (h kind List.mem_cons_self)
    | invalid s => rfl
  rw [rendered_eq_getD (hc ▸ Lexicon.built_empty locale), hnone]
  rfl

theorem renderPattern_of_isFree {m : Type → Type} [Monad m] [MonadFault m] (hp : p.IsFree) :
    (c.renderPattern p : m String) = pure p.freeText := by
  rw [renderPattern, hp.target]
  dsimp only
  rw [renderSingle, hp.clauses]
  rfl

/-- The fault that is raised for a pattern without data. -/
theorem renderPattern_of_objects (hc : c.lexicon = .empty locale) {f : Fault} (h : p.Objects f) :
    (c.renderPattern p : Except Fault String) = .error f := by
  rw [renderPattern]
  cases h with
  | named htarget =>
    rw [htarget, hc]
    rfl
  | complex htarget =>
    rw [htarget]
    dsimp only
    rw [renderComplex, hc]
    rfl
  | invalid htarget =>
    rw [htarget]
    rfl
  | member htarget hclauses hgroups =>
    rw [htarget, hc]
    dsimp only
    rw [renderSingle, hclauses, renderFrom_of_group hgroups]
    rfl
  | groups htarget hclauses hgroups =>
    rw [htarget]
    dsimp only
    rw [renderSingle, hclauses, renderFrom_of_ne hgroups]
    rfl

/-- Without data a pattern answers its free text, or fails with the fault that is raised for it. -/
theorem answer_eq_ok (hc : c.lexicon = .empty locale) (hp : p.WellFormed)
    (h : c.switches.raises → p.IsFree) : c.answer (.pattern p) = .ok p.freeText := by
  unfold answer
  dsimp only
  split
  case isTrue hraises => exact renderPattern_of_isFree (h hraises)
  case isFalse => rw [rendered_eq_freeText hc hp]

theorem answer_eq_error_iff (hc : c.lexicon = .empty locale) (hraises : c.switches.raises)
    (hp : p.WellFormed) {f : Fault} : c.answer (.pattern p) = .error f ↔ p.Objects f := by
  rcases hp.isFree_or_objects with hfree | ⟨g, hg⟩
  · rw [answer_eq_ok hc hp fun _ => hfree]
    exact ⟨fun h => (nomatch h), fun h => absurd hfree h.not_isFree⟩
  · have hanswer {f : Fault} (hf : p.Objects f) : c.answer (.pattern p) = .error f :=
      (if_pos hraises).trans (renderPattern_of_objects hc hf)
    refine ⟨?_, hanswer⟩
    intro h
    rw [hanswer hg] at h
    cases h
    exact hg

theorem exists_answer_eq_ok_iff (hc : c.lexicon = .empty locale) (hraises : c.switches.raises)
    (hp : p.WellFormed) : (∃ s, c.answer (.pattern p) = .ok s) ↔ p.IsFree := by
  refine ⟨?_, fun h => ⟨_, answer_eq_ok hc hp fun _ => h⟩⟩
  rintro ⟨s, hs⟩
  rcases hp.isFree_or_objects with hfree | ⟨f, hf⟩
  · exact hfree
  · rw [(answer_eq_error_iff hc hraises hp).2 hf] at hs
    cases hs

/-! ## Texts without data -/

/-- Segments fail as the first of their patterns that fails. -/
theorem mapM_answer_eq_error_iff {segments : List Segment} {f : Fault} :
    segments.mapM c.answer = .error f ↔ ∃ before p after,
      segments.filterMap Segment.pattern? = before ++ p :: after ∧
        (∀ q ∈ before, ∃ s, c.answer (.pattern q) = .ok s) ∧ c.answer (.pattern p) = .error f := by
  rw [mapM_eq_error_iff]
  refine ⟨?_, ?_⟩
  · rintro ⟨before, segment, after, rfl, hbefore, hf⟩
    cases segment with
    | literal s => cases hf
    | pattern p =>
      refine ⟨before.filterMap Segment.pattern?, p, after.filterMap Segment.pattern?, ?_, ?_, hf⟩
      · rw [List.filterMap_append, List.filterMap_cons_some (Segment.pattern?_pattern p)]
      · intro q hq
        obtain ⟨segment, hsegment, hpattern⟩ := List.mem_filterMap.1 hq
        cases segment with
        | literal s => cases hpattern
        | pattern q' =>
          cases hpattern
          exact hbefore _ hsegment
  · rintro ⟨before, p, after, hpatterns, hbefore, hf⟩
    obtain ⟨l₁, l₂, rfl, rfl, h₂⟩ := List.filterMap_eq_append_iff.1 hpatterns
    obtain ⟨literals, segment, rest, rfl, hliterals, hpattern, rfl⟩ :=
      List.filterMap_eq_cons_iff.1 h₂
    cases segment with
    | literal s => cases hpattern
    | pattern q =>
      cases hpattern
      refine ⟨l₁ ++ literals, .pattern p, rest, by rw [List.append_assoc], ?_, hf⟩
      intro segment hsegment
      cases segment with
      | literal s => exact ⟨s, rfl⟩
      | pattern q =>
        rcases List.mem_append.1 hsegment with h | h
        · exact hbefore q (List.mem_filterMap.2 ⟨_, h, rfl⟩)
        · cases hliterals _ h

end Setting

/-- A text whose patterns answer their free texts renders to the free texts. -/
theorem interpolate_of_answers {text : String} {d : Lexicon} {switches : Switches}
    {options : Options} (h : ∀ p ∈ patterns text,
      Setting.answer ⟨d, options, switches.merged options.overrides⟩ (.pattern p) =
        .ok p.freeText) :
    interpolate text d switches options = .ok (freeRendering text) := by
  have hanswer : ∀ segment ∈ scan text,
      Setting.answer ⟨d, options, switches.merged options.overrides⟩ segment =
        pure segment.freeText := by
    intro segment hsegment
    cases segment with
    | literal s => rfl
    | pattern p => exact h p (List.mem_filterMap.2 ⟨_, hsegment, rfl⟩)
  rw [interpolate_eq_mapM_answer, mapM_congr hanswer, List.mapM_pure]
  rfl

namespace Registry

variable {r : Registry} {locale text : String} {options : Options}

theorem lexicon_of_not_hasLocale (h : r.hasLocale locale = false) :
    r.lexicon locale = .empty locale := by
  rw [hasLocale, SortedMap.contains_eq_isSome, Option.isSome_eq_false_iff,
    Option.isNone_iff_eq_none] at h
  rw [lexicon, lexicon?, h]
  rfl

/-- With `raises` in force a text fails as the first of its patterns that is not of a free text
alone. -/
theorem interpolate_eq_error_iff_unloaded (h : r.hasLocale locale = false)
    (hraises : (r.switches.merged options.overrides).raises) {f : Fault} :
    r.interpolate text locale options = .error f ↔ ∃ before p after,
      patterns text = before ++ p :: after ∧ (∀ q ∈ before, q.IsFree) ∧ ¬p.IsFree ∧
        p.Objects f := by
  have hc := lexicon_of_not_hasLocale h
  rw [interpolate, interpolate_eq_mapM_answer, map_eq_error_iff, Setting.mapM_answer_eq_error_iff]
  refine exists_congr fun before => exists_congr fun p => exists_congr fun after =>
    and_congr_right fun hpatterns => ?_
  have hwell : ∀ q ∈ before ++ p :: after, q.WellFormed := by
    intro q hq
    rw [← hpatterns] at hq
    exact Pattern.wellFormed_of_mem_patterns hq
  obtain ⟨hbefore, hp, -⟩ := List.forall_mem_append.1 hwell |>.imp id List.forall_mem_cons.1
  rw [Setting.answer_eq_error_iff hc hraises hp]
  refine and_congr ?_ ⟨fun hobjects => ⟨hobjects.not_isFree, hobjects⟩, And.right⟩
  exact forall₂_congr fun q hq => Setting.exists_answer_eq_ok_iff hc hraises (hbefore q hq)

/-- The first pattern that is not of a free text alone has a fault. -/
theorem exists_first_objects {p : Pattern} (hp : p ∈ patterns text) (hfree : ¬p.IsFree) :
    ∃ f before p after, patterns text = before ++ p :: after ∧ (∀ q ∈ before, q.IsFree) ∧
      ¬p.IsFree ∧ p.Objects f := by
  have hsome : ((patterns text).find? (¬Pattern.IsFree ·)).isSome :=
    List.find?_isSome.2 ⟨p, hp, by simpa using hfree⟩
  obtain ⟨first, hfirst⟩ := Option.isSome_iff_exists.1 hsome
  obtain ⟨hnot, before, after, hpatterns, hbefore⟩ := List.find?_eq_some_iff_append.1 hfirst
  have hnot : ¬first.IsFree := by simpa using hnot
  have hwell := Pattern.wellFormed_of_mem_patterns (List.mem_of_find?_eq_some hfirst)
  obtain ⟨f, hf⟩ := hwell.isFree_or_objects.resolve_left hnot
  exact ⟨f, before, first, after, hpatterns, by simpa using hbefore, hnot, hf⟩

/-- In a locale without data a text renders to its literals and free texts.  With `raises` in force
it does so only if each of its patterns is a loose one of a free text alone, and else it fails as
the first that is not.  Options and the other switches make no difference. -/
theorem interpolate_unloaded (h : r.hasLocale locale = false) (text : String)
    (options : Options) :
    ((r.switches.merged options.overrides).raises = false →
      r.interpolate text locale options = .ok (freeRendering text)) ∧
    ((r.switches.merged options.overrides).raises →
      ((∃ f, r.interpolate text locale options = .error f) ↔ ∃ p ∈ patterns text, ¬p.IsFree) ∧
      (∀ f, r.interpolate text locale options = .error f ↔ ∃ before p after,
        patterns text = before ++ p :: after ∧ (∀ q ∈ before, q.IsFree) ∧ ¬p.IsFree ∧
          p.Objects f) ∧
      ((∀ p ∈ patterns text, p.IsFree) →
        r.interpolate text locale options = .ok (freeRendering text))) := by
  have hfree (hpatterns : (r.switches.merged options.overrides).raises →
      ∀ p ∈ patterns text, p.IsFree) :
      r.interpolate text locale options = .ok (freeRendering text) :=
    interpolate_of_answers fun p hp => Setting.answer_eq_ok (lexicon_of_not_hasLocale h)
      (Pattern.wellFormed_of_mem_patterns hp) fun hraises => hpatterns hraises p hp
  refine ⟨?_, ?_⟩
  · intro hquiet
    refine hfree fun hraises => ?_
    rw [hquiet] at hraises
    cases hraises
  · intro hraises
    refine ⟨⟨?_, ?_⟩, fun f => interpolate_eq_error_iff_unloaded h hraises,
      fun hpatterns => hfree fun _ => hpatterns⟩
    · rintro ⟨f, hf⟩
      obtain ⟨before, p, after, hpatterns, -, hp, -⟩ :=
        (interpolate_eq_error_iff_unloaded h hraises).1 hf
      exact ⟨p, hpatterns ▸ List.mem_append_right before List.mem_cons_self, hp⟩
    · rintro ⟨p, hp, hnot⟩
      obtain ⟨f, hf⟩ := exists_first_objects hp hnot
      exact ⟨f, (interpolate_eq_error_iff_unloaded h hraises).2 hf⟩

/-- A registry with data of another locale, and a request that is of no use. -/
theorem interpolate_unloaded_second :
    let r : Registry := ((Registry.empty Switches.standard).install
      ⟨"en", (LooseStore.empty "en").attemptAll [.addToken "f" "gender" "female"],
        .empty "en"⟩).2
    let text := "Dear @{friend}, @{!f,m:Lady|All}!"
    let asked (raises : Bool) := (Options.empty.insertIfValid "gender" "f").override .raises raises
    r.interpolate text "zz" (asked false) = .ok (freeRendering text) ∧
      freeRendering text = "Dear friend, All!" ∧
      r.interpolate text "zz" (asked true) =
        .error (.invalidToken "@{!f,m:Lady|All}" "!f") := by
  intro r text asked
  have hlocale : r.hasLocale "zz" = false := by decide +kernel
  have hquiet := (interpolate_unloaded hlocale text (asked false)).1 (by decide +kernel)
  have hraising := (interpolate_unloaded hlocale text (asked true)).2 (by decide +kernel)
  have hpatterns : patterns text =
      [⟨"@{friend}", .loose, [], some "friend"⟩,
        ⟨"@{!f,m:Lady|All}", .loose,
          [.choice [⟨[⟨"f", true⟩, ⟨"m", false⟩]⟩] (.text "Lady")], some "All"⟩] := by
    decide +kernel
  refine ⟨hquiet, by decide +kernel, (hraising.2.1 _).2 ⟨[_], _, [], hpatterns, ?_, ?_, ?_⟩⟩
  · decide
  · decide
  · exact @Pattern.Objects.member _ _ _ ⟨"f", true⟩ [⟨"m", false⟩] rfl rfl rfl

end Registry

end Inflection
