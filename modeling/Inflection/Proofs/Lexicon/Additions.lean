import Inflection.Proofs.Lexicon.Built

/-!
# What a registration adds

An accepted registration of a token or an alias puts one token into one namespace and changes
nothing else (`Adds`); one of a default sets the default of one kind (`SetsDefault`).

## Main statements

* `exists_addToken_iff`, `exists_addAlias_iff`: when a token or an alias is accepted.
* `addToken_eq_error_iff`, `addAlias_eq_error_iff`: why one is refused.
* `Adds.of_addToken`, `Adds.of_addAlias`, `SetsDefault.of_setDefault`: what is added then.
-/

namespace Inflection

namespace Lexicon

variable {d d' : Lexicon}

/-- One token has been added to a namespace, and nothing else has changed. -/
structure Adds (d d' : Lexicon) (σ : Option String) (t : Token) : Prop where
  built : d'.Built
  locale : d'.locale = d.locale
  unused : (d.slice σ).tokens.get? t.name = none
  slice : d'.slice σ = (d.slice σ).put t
  slice_of_ne : ∀ {τ}, τ ≠ σ → d'.slice τ = d.slice τ

theorem exists_addToken_iff (hd : d.Built) (strict : Bool) (name kind description : String) :
    (∃ d', d.addToken strict name kind description = .ok d') ↔
      (d.slice (space strict kind)).Fresh name kind := by
  refine (exists_register_iff hd strict (.addToken name kind description)).trans ?_
  refine ⟨?_, ?_⟩
  · intro h
    obtain ⟨s, hs⟩ := h
    exact (LooseStore.addToken_eq_ok_iff.1 hs).1
  · intro hf
    exact ⟨_, LooseStore.addToken_eq_ok_iff.2 ⟨hf, rfl⟩⟩

theorem addToken_eq_error_iff (hd : d.Built) {strict : Bool} {name kind description : String}
    {e : LoadError} :
    d.addToken strict name kind description = .error e ↔
      (d.slice (space strict kind)).Bars name kind e := by
  rw [addToken_eq_register, register_eq_error_iff hd]
  exact LooseStore.addToken_eq_error_iff

theorem Adds.of_addToken (hd : d.Built) {strict : Bool} {name kind description : String}
    (h : d.addToken strict name kind description = .ok d') :
    Adds d d' (space strict kind) (.plain name kind description) := by
  rw [addToken_eq_register] at h
  obtain ⟨hf, hslice⟩ := LooseStore.addToken_eq_ok_iff.1 (register_slice_eq_ok hd h)
  exact ⟨hd.register h, locale_register h, hf.unused, hslice, slice_register_of_ne h⟩

theorem exists_addAlias_iff (hd : d.Built) {strict : Bool} {target kind : String} {found : Token}
    (hfound : (d.slice (space strict kind)).token? target (some kind) = some found)
    (name : String) :
    (∃ d', d.addAlias strict name target kind = .ok d') ↔
      (d.slice (space strict kind)).Fresh name kind := by
  have hkind : found.kind = kind := (LooseStore.token?_eq_some_iff.1 hfound).2 kind rfl
  refine (exists_register_iff hd strict (.addAlias name target kind)).trans ?_
  refine ⟨?_, ?_⟩
  · intro h
    obtain ⟨s, hs⟩ := h
    obtain ⟨found', hfound', hf, -⟩ := (LooseStore.addAlias_eq_ok_iff (hd.slice _)).1 hs
    have hsame : found' = found := Option.some.inj (hfound'.symm.trans hfound)
    rw [hsame, hkind] at hf
    exact hf
  · intro hf
    exact ⟨_, (LooseStore.addAlias_eq_ok_iff (hd.slice _)).2
      ⟨found, hfound, hkind.symm ▸ hf, rfl⟩⟩

theorem addAlias_eq_error_iff (hd : d.Built) {strict : Bool} {name target kind : String}
    {found : Token}
    (hfound : (d.slice (space strict kind)).token? target (some kind) = some found)
    {e : LoadError} :
    d.addAlias strict name target kind = .error e ↔
      (d.slice (space strict kind)).Bars name kind e := by
  have hkind : found.kind = kind := (LooseStore.token?_eq_some_iff.1 hfound).2 kind rfl
  rw [addAlias_eq_register, register_eq_error_iff hd]
  refine (LooseStore.addAlias_eq_error_iff (hd.slice _) hfound).trans ?_
  rw [hkind]

theorem Adds.of_addAlias (hd : d.Built) {strict : Bool} {name target kind : String}
    {found : Token}
    (hfound : (d.slice (space strict kind)).token? target (some kind) = some found)
    (h : d.addAlias strict name target kind = .ok d') :
    Adds d d' (space strict kind) ⟨name, kind, found.description, some found.trueName⟩ := by
  rw [addAlias_eq_register] at h
  obtain ⟨found', hfound', hf, hslice⟩ :=
    (LooseStore.addAlias_eq_ok_iff (hd.slice _)).1 (register_slice_eq_ok hd h)
  have hsame : found' = found := Option.some.inj (hfound'.symm.trans hfound)
  have hkind : found.kind = kind := (LooseStore.token?_eq_some_iff.1 hfound).2 kind rfl
  rw [hsame, hkind] at hslice
  exact ⟨hd.register h, locale_register h, hf.unused, hslice, slice_register_of_ne h⟩

namespace Adds

variable {σ : Option String} {t : Token}

theorem get?_eq (h : Adds d d' σ t) (τ : Option String) (name : String) :
    (d'.slice τ).tokens.get? name =
      if τ = σ ∧ name = t.name then some t else (d.slice τ).tokens.get? name := by
  by_cases hτ : τ = σ
  · subst hτ
    rw [h.slice, LooseStore.get?_put]
    by_cases hn : t.name = name
    · rw [if_pos hn, if_pos ⟨rfl, hn.symm⟩]
    · rw [if_neg hn, if_neg fun hc => hn hc.2.symm]
  · rw [h.slice_of_ne hτ, if_neg fun hc => hτ hc.1]

/-- The tokens are those of before and the new one. -/
theorem get?_eq_some_iff (h : Adds d d' σ t) {τ : Option String} {name : String} {u : Token} :
    (d'.slice τ).tokens.get? name = some u ↔
      (d.slice τ).tokens.get? name = some u ∨ τ = σ ∧ name = t.name ∧ u = t := by
  rw [h.get?_eq]
  by_cases hc : τ = σ ∧ name = t.name
  · obtain ⟨rfl, rfl⟩ := hc
    simp [h.unused, eq_comm]
  · rw [if_neg hc]
    refine ⟨?_, ?_⟩
    · exact .inl
    · rintro (h | ⟨hτ, hn, -⟩)
      · exact h
      · exact absurd ⟨hτ, hn⟩ hc

/-- The unused names are those of before but the new one. -/
theorem get?_eq_none_iff (h : Adds d d' σ t) {τ : Option String} {name : String} :
    (d'.slice τ).tokens.get? name = none ↔
      (d.slice τ).tokens.get? name = none ∧ ¬(σ = τ ∧ t.name = name) := by
  rw [h.get?_eq]
  by_cases hc : τ = σ ∧ name = t.name
  · simp [hc]
  · rw [if_neg hc]
    refine ⟨?_, ?_⟩
    · exact fun h => ⟨h, fun hc' => hc ⟨hc'.1.symm, hc'.2.symm⟩⟩
    · exact fun h => h.1

theorem default?_eq (h : Adds d d' σ t) (τ : Option String) (kind : String) :
    (d'.slice τ).default? kind = (d.slice τ).default? kind := by
  by_cases hτ : τ = σ
  · subst hτ
    rw [h.slice, LooseStore.default?_put]
  · rw [h.slice_of_ne hτ]

theorem locale_slice (h : Adds d d' σ t) (τ : Option String) :
    (d'.slice τ).locale = (d.slice τ).locale := by
  by_cases hτ : τ = σ
  · subst hτ
    rw [h.slice, LooseStore.locale_put]
  · rw [h.slice_of_ne hτ]

end Adds

/-- The default of a kind of a namespace has been set, and nothing else has changed. -/
structure SetsDefault (d d' : Lexicon) (σ : Option String) (kind target : String) : Prop where
  built : d'.Built
  locale : d'.locale = d.locale
  slice : d'.slice σ =
    { d.slice σ with kinds := (d.slice σ).kinds.insert kind (some target) }
  slice_of_ne : ∀ {τ}, τ ≠ σ → d'.slice τ = d.slice τ

theorem exists_setDefault (hd : d.Built) {strict : Bool} {name kind : String} {found : Token}
    (hfound : (d.slice (space strict kind)).token? name (some kind) = some found) :
    ∃ d', d.setDefault strict kind name = .ok d' :=
  (exists_register_iff hd strict (.setDefault kind name)).2
    ⟨_, LooseStore.setDefault_eq_ok_iff.2 ⟨found, hfound, rfl⟩⟩

theorem SetsDefault.of_setDefault (hd : d.Built) {strict : Bool} {name kind : String}
    {found : Token}
    (hfound : (d.slice (space strict kind)).token? name (some kind) = some found)
    (h : d.setDefault strict kind name = .ok d') :
    SetsDefault d d' (space strict kind) kind found.trueName := by
  rw [setDefault_eq_register] at h
  obtain ⟨found', hfound', hslice⟩ :=
    LooseStore.setDefault_eq_ok_iff.1 (register_slice_eq_ok hd h)
  have hsame : found' = found := Option.some.inj (hfound'.symm.trans hfound)
  rw [hsame] at hslice
  exact ⟨hd.register h, locale_register h, hslice, slice_register_of_ne h⟩

namespace SetsDefault

variable {σ : Option String} {kind target : String}

theorem tokens_eq (h : SetsDefault d d' σ kind target) (τ : Option String) :
    (d'.slice τ).tokens = (d.slice τ).tokens := by
  by_cases hτ : τ = σ
  · rw [hτ, h.slice]
  · rw [h.slice_of_ne hτ]

theorem locale_slice (h : SetsDefault d d' σ kind target) (τ : Option String) :
    (d'.slice τ).locale = (d.slice τ).locale := by
  by_cases hτ : τ = σ
  · rw [hτ, h.slice]
  · rw [h.slice_of_ne hτ]

theorem default?_eq (h : SetsDefault d d' σ kind target) (τ : Option String) (kind' : String) :
    (d'.slice τ).default? kind' =
      if τ = σ ∧ kind' = kind then some target else (d.slice τ).default? kind' := by
  by_cases hτ : τ = σ
  · subst hτ
    rw [h.slice, LooseStore.default?, SortedMap.get?_insert]
    by_cases hk : kind = kind'
    · rw [if_pos hk, if_pos ⟨rfl, hk.symm⟩]
      rfl
    · rw [if_neg hk, if_neg fun hc => hk hc.2.symm]
      rfl
  · rw [h.slice_of_ne hτ, if_neg fun hc => hτ hc.1]

end SetsDefault

end Lexicon

end Inflection
