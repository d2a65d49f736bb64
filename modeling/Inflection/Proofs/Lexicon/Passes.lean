import Inflection.Proofs.Lexicon.Additions
import Inflection.Proofs.Lexicon.Items

/-!
# The passes of loading

Loading runs three passes over the entries of a tree.  What a pass does with an entry depends on
the form of the entry.  For each pass there are two lemmas about one step of it, when the step
ends well and what it then adds, and from them the same two about the whole pass.

## Main statements

* `exists_loadTokens_iff`, `holds_loadTokens_iff`: the first pass adds the true tokens.
* `exists_loadAliases_iff`, `holds_loadAliases_iff`: the second pass adds the aliases.
* `exists_loadDefaults_iff`, `holds_loadDefaults_iff`: the third pass sets the defaults.
-/

namespace Inflection

namespace Lexicon

variable {d d' : Lexicon}

theorem loadToken_eq (d : Lexicon) (i : Item) :
    loadToken i.kind d (i.name, i.value?) =
      match i.form with
      | .missing => .error (.badToken d.locale i.kind.name i.name .missingDescription)
      | .plain description => d.addToken i.kind.strict i.name i.kind.name description
      | _ => .ok d := by
  obtain ⟨k, name, value?⟩ := i
  by_cases hn : name = defaultName
  · cases value? <;> simp [loadToken, Item.form, EntryForm.of, hn]
  · cases value? with
    | none => simp [loadToken, Item.form, EntryForm.of, hn]
    | some value =>
      by_cases hv : isMarked value
      · simp [loadToken, Item.form, EntryForm.of, hn, hv]
      · simp [loadToken, Item.form, EntryForm.of, hn, hv]

theorem loadAlias_eq (d : Lexicon) (i : Item) :
    loadAlias i.kind d (i.name, i.value?) =
      match i.form with
      | .pointer pointer => do
        let target ← i.kind.resolve d.locale i.name pointer
        d.addAlias i.kind.strict i.name target i.kind.name
      | _ => .ok d := by
  obtain ⟨k, name, value?⟩ := i
  by_cases hn : name = defaultName
  · cases value? <;> simp [loadAlias, Item.form, EntryForm.of, hn]
  · cases value? with
    | none => simp [loadAlias, Item.form, EntryForm.of, hn]
    | some value =>
      by_cases hv : isMarked value
      · simp [loadAlias, Item.form, EntryForm.of, hn, hv]
      · simp [loadAlias, Item.form, EntryForm.of, hn, hv]

/-! ## The first two passes -/

/-- A lexicon of a locale in which no default is set yet. -/
structure Bare (locale : String) (d : Lexicon) : Prop where
  built : d.Built
  locale_eq : d.locale = locale
  locale_slice : ∀ σ, (d.slice σ).locale = locale
  default?_eq : ∀ σ kind, (d.slice σ).default? kind = none

theorem bare_empty (locale : String) : Bare locale (empty locale) where
  built := built_empty locale
  locale_eq := rfl
  locale_slice σ := by cases σ <;> rfl
  default?_eq σ kind := by cases σ <;> rfl

theorem Bare.adds {locale : String} (hd : Bare locale d) {σ : Option String} {t : Token}
    (h : Adds d d' σ t) : Bare locale d' where
  built := h.built
  locale_eq := h.locale.trans hd.locale_eq
  locale_slice τ := (h.locale_slice τ).trans (hd.locale_slice τ)
  default?_eq τ kind := (h.default?_eq τ kind).trans (hd.default?_eq τ kind)

/-- A token stands in a namespace under a name. -/
def Holds (d : Lexicon) (c : Option String × String × Token) : Prop :=
  (d.slice c.1).tokens.get? c.2.1 = some c.2.2

/-- The place of an entry is unused, if its form is one that takes a place. -/
def Free (P : EntryForm → Prop) (d : Lexicon) (i : Item) : Prop :=
  P i.form → (d.slice i.space).tokens.get? i.name = none

/-- Two entries do not take the same place. -/
def Apart (P : EntryForm → Prop) (i j : Item) : Prop :=
  P i.form → P j.form → ¬(i.space = j.space ∧ i.name = j.name)

theorem Adds.free_iff {i : Item} {t : Token} (h : Adds d d' i.space t) (hn : t.name = i.name)
    {P : EntryForm → Prop} (hi : P i.form) (j : Item) :
    Free P d' j ↔ Free P d j ∧ Apart P i j := by
  refine ⟨?_, ?_⟩
  · intro hj
    refine ⟨fun hp => (h.get?_eq_none_iff.1 (hj hp)).1, fun _ hp hc => ?_⟩
    exact (h.get?_eq_none_iff.1 (hj hp)).2 ⟨hc.1, hn.trans hc.2⟩
  · rintro ⟨hj, hapart⟩ hp
    exact h.get?_eq_none_iff.2 ⟨hj hp, fun hc => hapart hi hp ⟨hc.1, hn.symm.trans hc.2⟩⟩

/-- An entry that takes no place and adds nothing leaves what holds and what is free. -/
theorem next_of_not {P : EntryForm → Prop} {i : Item} (hi : ¬P i.form)
    {New : Option String × String × Token → Prop} (hnew : ∀ c, ¬New c) :
    (∀ c, d.Holds c ↔ d.Holds c ∨ New c) ∧ ∀ j, Free P d j ↔ Free P d j ∧ Apart P i j := by
  refine ⟨?_, ?_⟩
  · intro c
    exact (or_iff_left (hnew c)).symm
  · intro j
    have hapart : Apart P i j := fun hp => absurd hp hi
    exact (and_iff_left hapart).symm

/-- The entry is fit for the first pass: it has a description, and a name if it is a true token. -/
def FitToken (i : Item) : Prop := i.form ≠ .missing ∧ (i.form.IsPlain → isName i.name)

/-- The true token that an entry adds. -/
def AddsToken (i : Item) (c : Option String × String × Token) : Prop :=
  ∃ description, i.form = .plain description ∧
    c = (i.space, i.name, .plain i.name i.kind.name description)

theorem exists_loadToken_iff (hd : d.Built) {i : Item} (hk : isName i.kind.name) :
    (∃ d', loadToken i.kind d (i.name, i.value?) = .ok d') ↔
      FitToken i ∧ Free EntryForm.IsPlain d i := by
  rw [loadToken_eq]
  unfold FitToken Free
  cases hf : i.form with
  | default => simp [EntryForm.IsPlain]
  | missing => simp
  | pointer p => simp [EntryForm.IsPlain]
  | plain description =>
    have hne := (Item.form_eq_plain_iff.1 hf).1
    have hplain : (EntryForm.plain description).IsPlain := ⟨_, rfl⟩
    refine (exists_addToken_iff hd ..).trans ⟨fun h => ?_, fun h => ?_⟩
    · exact ⟨⟨by simp, fun _ => h.isName⟩, fun _ => h.unused⟩
    · exact ⟨hk, h.1.2 hplain, hne, h.2 hplain⟩

theorem AddsToken.isPlain {i : Item} {c : Option String × String × Token} (h : AddsToken i c) :
    i.form.IsPlain := by
  obtain ⟨description, hf, -⟩ := h
  exact ⟨description, hf⟩

/-- The first pass passes over the entries that are no true tokens. -/
theorem eq_of_loadToken {i : Item} (hi : ¬i.form.IsPlain)
    (h : loadToken i.kind d (i.name, i.value?) = .ok d') : d' = d := by
  rw [loadToken_eq] at h
  split at h
  case h_1 => cases h
  case h_2 description hf => exact absurd ⟨description, hf⟩ hi
  case h_3 => exact (Except.ok.inj h).symm

theorem next_loadToken {locale : String} (hd : Bare locale d) {i : Item}
    (h : loadToken i.kind d (i.name, i.value?) = .ok d') :
    Bare locale d' ∧ (∀ c, d'.Holds c ↔ d.Holds c ∨ AddsToken i c) ∧
      ∀ j, Free EntryForm.IsPlain d' j ↔
        Free EntryForm.IsPlain d j ∧ Apart EntryForm.IsPlain i j := by
  by_cases hplain : i.form.IsPlain
  · obtain ⟨description, hf⟩ := hplain
    rw [loadToken_eq, hf] at h
    have hadds := Adds.of_addToken hd.built h
    refine ⟨hd.adds hadds, ?_, hadds.free_iff rfl ⟨_, hf⟩⟩
    intro c
    refine hadds.get?_eq_some_iff.trans (or_congr_right ?_)
    obtain ⟨τ, name, t⟩ := c
    simp [AddsToken, hf, Item.space, Token.plain]
  · have hsame := eq_of_loadToken hplain h
    subst hsame
    exact ⟨hd, next_of_not hplain fun c hc => hplain hc.isPlain⟩

/-- The lexicon has the true tokens of some kinds. -/
def Filled (ks : List KindEntry) (d : Lexicon) : Prop :=
  ∀ k ∈ ks, ∀ {name description}, k.entries.get? name = some (some description) →
    name ≠ defaultName → isMarked description = false →
    (d.slice (space k.strict k.name)).tokens.get? name = some (.plain name k.name description)

theorem Filled.adds {ks : List KindEntry} (hd : Filled ks d) {σ : Option String} {t : Token}
    (h : Adds d d' σ t) : Filled ks d' :=
  fun k hk _ _ hget hn hv => h.get?_eq_some_iff.2 (.inl (hd k hk hget hn hv))

/-- A pointer that can be followed leads to a token of the lexicon. -/
theorem Filled.token?_of_follow {ks : List KindEntry} (hd : Filled ks d) {k : KindEntry}
    (hk : k ∈ ks) {lookups : Nat} {pointer target : String}
    (h : k.entries.follow lookups pointer = .ok target) :
    ∃ description, k.entries.get? target = some (some description) ∧
      (d.slice (space k.strict k.name)).token? target (some k.name) =
        some (.plain target k.name description) := by
  obtain ⟨n, -, hl⟩ := RawKind.follow_eq_ok_iff.1 h
  obtain ⟨-, hn, description, hget, hv⟩ := hl.plain
  refine ⟨description, hget, LooseStore.token?_eq_some_iff.2 ⟨hd k hk hget hn hv, ?_⟩⟩
  rintro _ ⟨⟩
  rfl

theorem resolve_eq_ok_iff {locale : String} {k : KindEntry} {token pointer target : String} :
    k.resolve locale token pointer = .ok target ↔
      k.entries.follow maxLookups pointer = .ok target := by
  unfold KindEntry.resolve
  cases k.entries.follow maxLookups pointer with
  | error flaw => simp
  | ok name => simp

theorem resolve_eq_error_iff {locale : String} {k : KindEntry} {token pointer : String}
    {e : LoadError} :
    k.resolve locale token pointer = .error e ↔ ∃ flaw,
      k.entries.Strays maxLookups pointer flaw ∧
        e = .badAlias locale k.name token pointer flaw := by
  simp only [← RawKind.follow_eq_error_iff]
  unfold KindEntry.resolve
  cases k.entries.follow maxLookups pointer with
  | error flaw => simp [eq_comm]
  | ok name => simp

/-- The entry is fit for the second pass: an alias has a name and a pointer that leads to a true
token. -/
def FitAlias (i : Item) : Prop :=
  ∀ pointer, i.form = .pointer pointer → isName i.name ∧
    ∃ target, i.kind.entries.follow maxLookups pointer = .ok target

/-- The alias that an entry adds. -/
def AddsAlias (i : Item) (c : Option String × String × Token) : Prop :=
  ∃ pointer target description, i.form = .pointer pointer ∧
    i.kind.entries.follow maxLookups pointer = .ok target ∧
    i.kind.entries.get? target = some (some description) ∧
    c = (i.space, i.name, ⟨i.name, i.kind.name, description, some target⟩)

theorem exists_loadAlias_iff {ks : List KindEntry} (hd : d.Built) (hfilled : Filled ks d)
    {i : Item} (hi : i.kind ∈ ks) (hk : isName i.kind.name) :
    (∃ d', loadAlias i.kind d (i.name, i.value?) = .ok d') ↔
      FitAlias i ∧ Free EntryForm.IsPointer d i := by
  rw [loadAlias_eq]
  unfold FitAlias Free
  cases hf : i.form with
  | default => simp [EntryForm.IsPointer]
  | missing => simp [EntryForm.IsPointer]
  | plain description => simp [EntryForm.IsPointer]
  | pointer p =>
    have hne := (Item.form_eq_pointer_iff.1 hf).1
    simp only [bind_eq_ok_iff, resolve_eq_ok_iff]
    refine ⟨?_, ?_⟩
    · intro h
      obtain ⟨d', target, htarget, h⟩ := h
      obtain ⟨description, -, hfound⟩ := hfilled.token?_of_follow hi htarget
      have hfresh := (exists_addAlias_iff hd hfound i.name).1 ⟨d', h⟩
      refine ⟨?_, fun _ => hfresh.unused⟩
      intro p' hp'
      cases hp'
      exact ⟨hfresh.isName, target, htarget⟩
    · intro h
      obtain ⟨hfit, hfree⟩ := h
      obtain ⟨hn, target, htarget⟩ := hfit p rfl
      obtain ⟨description, -, hfound⟩ := hfilled.token?_of_follow hi htarget
      obtain ⟨d', h⟩ :=
        (exists_addAlias_iff hd hfound i.name).2 ⟨hk, hn, hne, hfree ⟨p, rfl⟩⟩
      exact ⟨d', target, htarget, h⟩

theorem AddsAlias.isPointer {i : Item} {c : Option String × String × Token}
    (h : AddsAlias i c) : i.form.IsPointer := by
  obtain ⟨pointer, _, _, hf, -⟩ := h
  exact ⟨pointer, hf⟩

theorem AddsAlias.unique {i : Item} {c c' : Option String × String × Token} (h : AddsAlias i c)
    (h' : AddsAlias i c') : c = c' := by
  obtain ⟨pointer, target, description, hf, htarget, hget, rfl⟩ := h
  obtain ⟨pointer', target', description', hf', htarget', hget', rfl⟩ := h'
  rw [hf] at hf'
  cases hf'
  rw [htarget] at htarget'
  cases htarget'
  rw [hget] at hget'
  cases hget'
  rfl

/-- The second pass passes over the entries that are no aliases. -/
theorem eq_of_loadAlias {i : Item} (hi : ¬i.form.IsPointer)
    (h : loadAlias i.kind d (i.name, i.value?) = .ok d') : d' = d := by
  rw [loadAlias_eq] at h
  split at h
  case h_1 pointer hf => exact absurd ⟨pointer, hf⟩ hi
  case h_2 => exact (Except.ok.inj h).symm

theorem next_loadAlias {locale : String} {ks : List KindEntry} (hd : Bare locale d)
    (hfilled : Filled ks d) {i : Item} (hi : i.kind ∈ ks)
    (h : loadAlias i.kind d (i.name, i.value?) = .ok d') :
    (Bare locale d' ∧ Filled ks d') ∧ (∀ c, d'.Holds c ↔ d.Holds c ∨ AddsAlias i c) ∧
      ∀ j, Free EntryForm.IsPointer d' j ↔
        Free EntryForm.IsPointer d j ∧ Apart EntryForm.IsPointer i j := by
  by_cases hpointer : i.form.IsPointer
  · obtain ⟨p, hf⟩ := hpointer
    rw [loadAlias_eq, hf] at h
    obtain ⟨target, htarget, h⟩ := bind_eq_ok_iff.1 h
    rw [resolve_eq_ok_iff] at htarget
    obtain ⟨description, hget, hfound⟩ := hfilled.token?_of_follow hi htarget
    have hadds := Adds.of_addAlias hd.built hfound h
    have hnew : AddsAlias i (i.space, i.name, ⟨i.name, i.kind.name, description, some target⟩) :=
      ⟨p, target, description, hf, htarget, hget, rfl⟩
    refine ⟨⟨hd.adds hadds, hfilled.adds hadds⟩, ?_, hadds.free_iff rfl ⟨_, hf⟩⟩
    intro c
    refine hadds.get?_eq_some_iff.trans (or_congr_right ?_)
    obtain ⟨τ, name, t⟩ := c
    refine ⟨?_, ?_⟩
    · intro h
      obtain ⟨rfl, rfl, rfl⟩ := h
      exact hnew
    · intro hc
      cases hc.unique hnew
      exact ⟨rfl, rfl, rfl⟩
  · have hsame := eq_of_loadAlias hpointer h
    subst hsame
    exact ⟨⟨hd, hfilled⟩, next_of_not hpointer fun c hc => hpointer hc.isPointer⟩

/-! ## Defaults -/

/-- The default of a kind in its namespace. -/
def HoldsDefault (d : Lexicon) (c : Option String × String × String) : Prop :=
  (d.slice c.1).default? c.2.1 = some c.2.2

/-- The default that a kind sets. -/
def AddsDefault (k : KindEntry) (c : Option String × String × String) : Prop :=
  ∃ pointer target, k.entries.get? defaultName = some (some pointer) ∧
    k.entries.follow maxLookups pointer = .ok target ∧ c = (space k.strict k.name, k.name, target)

/-- The kind is fit for the third pass: a default has a pointer that leads to a true token. -/
def FitDefault (k : KindEntry) : Prop :=
  ∀ value?, k.entries.get? defaultName = some value? → ∃ pointer target, value? = some pointer ∧
    k.entries.follow maxLookups pointer = .ok target

/-- The namespace and the name of a kind tell it from the others. -/
def Distinct (ks : List KindEntry) : Prop :=
  ∀ k ∈ ks, ∀ l ∈ ks, space k.strict k.name = space l.strict l.name → k.name = l.name → k = l

theorem AddsDefault.unique {k : KindEntry} {c c' : Option String × String × String}
    (h : AddsDefault k c) (h' : AddsDefault k c') : c = c' := by
  obtain ⟨pointer, target, hget, htarget, rfl⟩ := h
  obtain ⟨pointer', target', hget', htarget', rfl⟩ := h'
  rw [hget] at hget'
  cases hget'
  rw [htarget] at htarget'
  cases htarget'
  rfl

/-- The third pass has only set defaults of some kinds since it began. -/
structure Settled (ks : List KindEntry) (start d : Lexicon) : Prop where
  built : d.Built
  locale_eq : d.locale = start.locale
  locale_slice : ∀ σ, (d.slice σ).locale = (start.slice σ).locale
  tokens_eq : ∀ σ, (d.slice σ).tokens = (start.slice σ).tokens
  default : ∀ {c}, d.HoldsDefault c → ∃ k ∈ ks, AddsDefault k c

theorem Settled.filled {ks : List KindEntry} {start : Lexicon} (h : Settled ks start d)
    (hs : Filled ks start) : Filled ks d := by
  intro k hk name description hget hn hv
  rw [h.tokens_eq]
  exact hs k hk hget hn hv

theorem loadDefault_of_some {k : KindEntry} {pointer target : String}
    (hget : k.entries.get? defaultName = some (some pointer))
    (htarget : k.entries.follow maxLookups pointer = .ok target) (d : Lexicon) :
    loadDefault d k = d.setDefault k.strict k.name target := by
  unfold loadDefault
  rw [hget]
  simp only [resolve_eq_ok_iff.2 htarget]
  rfl

theorem exists_loadDefault_iff {ks : List KindEntry} (hd : d.Built) (hfilled : Filled ks d)
    {k : KindEntry} (hk : k ∈ ks) : (∃ d', loadDefault d k = .ok d') ↔ FitDefault k := by
  refine ⟨?_, ?_⟩
  · rintro ⟨d', h⟩ value? hget
    unfold loadDefault at h
    rw [hget] at h
    cases value? with
    | none => cases h
    | some pointer =>
      obtain ⟨target, htarget, -⟩ := bind_eq_ok_iff.1 h
      exact ⟨pointer, target, rfl, resolve_eq_ok_iff.1 htarget⟩
  · intro hfit
    cases hget : k.entries.get? defaultName with
    | none =>
      refine ⟨d, ?_⟩
      unfold loadDefault
      rw [hget]
    | some value? =>
      obtain ⟨pointer, target, rfl, htarget⟩ := hfit value? hget
      obtain ⟨description, -, hfound⟩ := hfilled.token?_of_follow hk htarget
      rw [loadDefault_of_some hget htarget]
      exact exists_setDefault hd hfound

/-- A default that a kind had before it set its own was set by the kind itself. -/
theorem Settled.eq_of_place {ks : List KindEntry} {start : Lexicon} (hd : Settled ks start d)
    (hdist : Distinct ks) {k : KindEntry} (hk : k ∈ ks) {c c' : Option String × String × String}
    (hadds : AddsDefault k c) (h : d.HoldsDefault c') (hσ : c'.1 = space k.strict k.name)
    (hn : c'.2.1 = k.name) : c' = c := by
  obtain ⟨l, hl, hc'⟩ := hd.default h
  have hkl : l = k := by
    obtain ⟨pointer, target, -, -, hplace⟩ := hc'
    rw [hplace] at hσ hn
    exact hdist l hl k hk hσ hn
  rw [hkl] at hc'
  exact hc'.unique hadds

/-- Setting the default of a kind adds it to the defaults of before. -/
theorem holdsDefault_iff {ks : List KindEntry} {start : Lexicon} (hd : Settled ks start d)
    (hdist : Distinct ks) {k : KindEntry} (hk : k ∈ ks) {target : String}
    (hadds : AddsDefault k (space k.strict k.name, k.name, target))
    (hsets : SetsDefault d d' (space k.strict k.name) k.name target)
    (c : Option String × String × String) :
    d'.HoldsDefault c ↔ d.HoldsDefault c ∨ AddsDefault k c := by
  rw [HoldsDefault, hsets.default?_eq]
  by_cases hc : c.1 = space k.strict k.name ∧ c.2.1 = k.name
  · rw [if_pos hc]
    refine ⟨?_, ?_⟩
    · intro h
      have hsame : c = (space k.strict k.name, k.name, target) :=
        Prod.ext hc.1 (Prod.ext hc.2 (Option.some.inj h).symm)
      exact .inr (hsame ▸ hadds)
    · intro h
      have hsame : c = (space k.strict k.name, k.name, target) := by
        rcases h with h | h
        · exact hd.eq_of_place hdist hk hadds h hc.1 hc.2
        · exact h.unique hadds
      rw [hsame]
  · rw [if_neg hc]
    refine ⟨.inl, ?_⟩
    intro h
    rcases h with h | h
    · exact h
    · have hsame := h.unique hadds
      rw [hsame] at hc
      exact absurd ⟨rfl, rfl⟩ hc

theorem next_loadDefault {ks : List KindEntry} (hdist : Distinct ks) {start : Lexicon}
    (hfilled : Filled ks start) (hd : Settled ks start d) {k : KindEntry} (hk : k ∈ ks)
    (h : loadDefault d k = .ok d') :
    Settled ks start d' ∧ ∀ c, d'.HoldsDefault c ↔ d.HoldsDefault c ∨ AddsDefault k c := by
  cases hget : k.entries.get? defaultName with
  | none =>
    unfold loadDefault at h
    rw [hget] at h
    cases h
    have hnone (c) : ¬AddsDefault k c := by
      intro hc
      obtain ⟨pointer, target, hpointer, -⟩ := hc
      rw [hget] at hpointer
      cases hpointer
    exact ⟨hd, fun c => (or_iff_left (hnone c)).symm⟩
  | some value? =>
    obtain ⟨pointer, target, rfl, htarget⟩ :=
      (exists_loadDefault_iff hd.built (hd.filled hfilled) hk).1 ⟨d', h⟩ value? hget
    rw [loadDefault_of_some hget htarget] at h
    obtain ⟨description, -, hfound⟩ := (hd.filled hfilled).token?_of_follow hk htarget
    have hsets := SetsDefault.of_setDefault hd.built hfound h
    have hadds : AddsDefault k (space k.strict k.name, k.name, target) :=
      ⟨pointer, target, hget, htarget, rfl⟩
    have hiff := holdsDefault_iff hd hdist hk hadds hsets
    refine ⟨⟨hsets.built, hsets.locale.trans hd.locale_eq, ?_, ?_, ?_⟩, hiff⟩
    · intro σ
      exact (hsets.locale_slice σ).trans (hd.locale_slice σ)
    · intro σ
      exact (hsets.tokens_eq σ).trans (hd.tokens_eq σ)
    · intro c hc
      rcases (hiff c).1 hc with hc | hc
      · exact hd.default hc
      · exact ⟨k, hk, hc⟩

/-! ## Whole passes -/

theorem foldlM_loadTokens (ks : List KindEntry) (d : Lexicon) :
    ks.foldlM loadTokens d =
      (ks.flatMap (·.items)).foldlM (fun d i => loadToken i.kind d (i.name, i.value?)) d := by
  rw [← foldlM_foldlM]
  simp only [KindEntry.items, List.foldlM_map]
  rfl

theorem foldlM_loadAliases (ks : List KindEntry) (d : Lexicon) :
    ks.foldlM loadAliases d =
      (ks.flatMap (·.items)).foldlM (fun d i => loadAlias i.kind d (i.name, i.value?)) d := by
  rw [← foldlM_foldlM]
  simp only [KindEntry.items, List.foldlM_map]
  rfl

theorem kind_mem_of_mem_items {ks : List KindEntry} {i : Item} (h : i ∈ ks.flatMap (·.items)) :
    i.kind ∈ ks := by
  obtain ⟨k, hk, hi⟩ := List.mem_flatMap.1 h
  exact (KindEntry.mem_items_iff.1 hi).1 ▸ hk

variable {locale : String} {ks : List KindEntry}

theorem exists_loadTokens_iff (hks : ∀ k ∈ ks, isName k.name) (hd : Bare locale d) :
    (∃ d', ks.foldlM loadTokens d = .ok d') ↔
      (∀ i ∈ ks.flatMap (·.items), FitToken i ∧ Free EntryForm.IsPlain d i) ∧
        (ks.flatMap (·.items)).Pairwise (Apart EntryForm.IsPlain) := by
  rw [foldlM_loadTokens]
  refine foldlM_isOk_iff (Bare locale) (fun i hi d hd => ?_) (fun i _ d d' hd h => ?_) hd
  · exact exists_loadToken_iff hd.built (hks _ (kind_mem_of_mem_items hi))
  · obtain ⟨hd', -, hfree⟩ := next_loadToken hd h
    exact ⟨hd', hfree⟩

theorem holds_loadTokens_iff (hd : Bare locale d) (h : ks.foldlM loadTokens d = .ok d') :
    Bare locale d' ∧ ∀ c, d'.Holds c ↔ d.Holds c ∨ ∃ i ∈ ks.flatMap (·.items), AddsToken i c := by
  rw [foldlM_loadTokens] at h
  refine foldlM_holds_iff (Bare locale) ?_ hd h
  intro i _ d d' hd h
  obtain ⟨hd', hadds, -⟩ := next_loadToken hd h
  exact ⟨hd', hadds⟩

/-- After the first pass the lexicon has the true tokens. -/
theorem filled_loadTokens (hd : Bare locale d) (h : ks.foldlM loadTokens d = .ok d') :
    Filled ks d' := by
  intro k hk name description hget hn hv
  let i : Item := ⟨k, name, some description⟩
  have hi : i ∈ ks.flatMap (·.items) :=
    List.mem_flatMap.2 ⟨k, hk, KindEntry.mem_items_iff.2 ⟨rfl, hget⟩⟩
  have hadds : AddsToken i (i.space, name, .plain name k.name description) :=
    ⟨description, Item.form_eq_plain_iff.2 ⟨hn, rfl, hv⟩, rfl⟩
  exact ((holds_loadTokens_iff hd h).2 _).2 (.inr ⟨i, hi, hadds⟩)

theorem exists_loadAliases_iff (hks : ∀ k ∈ ks, isName k.name) (hd : Bare locale d)
    (hfilled : Filled ks d) :
    (∃ d', ks.foldlM loadAliases d = .ok d') ↔
      (∀ i ∈ ks.flatMap (·.items), FitAlias i ∧ Free EntryForm.IsPointer d i) ∧
        (ks.flatMap (·.items)).Pairwise (Apart EntryForm.IsPointer) := by
  rw [foldlM_loadAliases]
  refine foldlM_isOk_iff (fun d => Bare locale d ∧ Filled ks d) (fun i hi d hd => ?_)
    (fun i hi d d' hd h => ?_) ⟨hd, hfilled⟩
  · have hk := kind_mem_of_mem_items hi
    exact exists_loadAlias_iff hd.1.built hd.2 hk (hks _ hk)
  · obtain ⟨hd', -, hfree⟩ := next_loadAlias hd.1 hd.2 (kind_mem_of_mem_items hi) h
    exact ⟨hd', hfree⟩

theorem holds_loadAliases_iff (hd : Bare locale d) (hfilled : Filled ks d)
    (h : ks.foldlM loadAliases d = .ok d') :
    (Bare locale d' ∧ Filled ks d') ∧
      ∀ c, d'.Holds c ↔ d.Holds c ∨ ∃ i ∈ ks.flatMap (·.items), AddsAlias i c := by
  rw [foldlM_loadAliases] at h
  refine foldlM_holds_iff (fun d => Bare locale d ∧ Filled ks d)
    (fun i hi d d' hd h => ?_) ⟨hd, hfilled⟩ h
  obtain ⟨hd', hadds, -⟩ := next_loadAlias hd.1 hd.2 (kind_mem_of_mem_items hi) h
  exact ⟨hd', hadds⟩

theorem Bare.settled (hd : Bare locale d) : Settled ks d d where
  built := hd.built
  locale_eq := rfl
  locale_slice _ := rfl
  tokens_eq _ := rfl
  default {c} h := by
    rw [HoldsDefault, hd.default?_eq] at h
    cases h

theorem exists_loadDefaults_iff (hdist : Distinct ks) (hd : Bare locale d)
    (hfilled : Filled ks d) :
    (∃ d', ks.foldlM loadDefault d = .ok d') ↔ ∀ k ∈ ks, FitDefault k := by
  refine foldlM_isOk_iff_forall (Settled ks d) (fun k hk s hs => ?_) (fun k hk s s' hs h => ?_)
    hd.settled
  · exact exists_loadDefault_iff hs.built (hs.filled hfilled) hk
  · exact (next_loadDefault hdist hfilled hs hk h).1

theorem holds_loadDefaults_iff (hdist : Distinct ks) (hd : Bare locale d) (hfilled : Filled ks d)
    (h : ks.foldlM loadDefault d = .ok d') :
    Settled ks d d' ∧ ∀ c, d'.HoldsDefault c ↔ ∃ k ∈ ks, AddsDefault k c := by
  obtain ⟨hd', hall⟩ :=
    foldlM_holds_iff (Settled ks d)
      (fun k hk s s' hs h => next_loadDefault hdist hfilled hs hk h) hd.settled h
  refine ⟨hd', fun c => (hall c).trans (or_iff_right ?_)⟩
  intro hc
  rw [HoldsDefault, hd.default?_eq] at hc
  cases hc

end Lexicon

end Inflection
