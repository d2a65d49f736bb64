import Inflection.Proofs.Lexicon.Faults
import Inflection.Proofs.Lexicon.Load

/-!
# What loading refuses

The error of a failed pass blames an entry of the tree.  Up to the entry at which a pass fails, the
lexicon holds tokens of other entries only, so a name that is in use there was given by another
entry of the tree; and what a pass finds with a pointer stands in the lexicon already, so an alias
or a default is never refused for its target.

## Main statements

* `tokenFault_of_loadTokens`, `aliasFault_of_loadAliases`, `defaultFault_of_loadDefaults`: the
  error of a pass blames a fault of its sort.
* `load_error_blames`: the error of loading is right about the tree, and keeps to the order of the
  passes.
-/

namespace Inflection

namespace Lexicon

variable {tree : RawTree} {locale : String} {d : Lexicon} {e : LoadError} {i j : Item}

/-! ## Entries -/

theorem hasEntry_of_mem_items (hi : i ∈ tree.items) :
    tree.HasEntry i.kind.key i.name i.value? := by
  obtain ⟨hk, hget⟩ := RawTree.mem_items_iff.1 hi
  exact ⟨i.kind.entries, RawTree.get?_key hk, hget⟩

theorem exists_item_of_hasEntry {key name : String} {value? : Option String}
    (h : tree.HasEntry key name value?) :
    ∃ i ∈ tree.items, i.kind.key = key ∧ i.name = name ∧ i.value? = value? := by
  obtain ⟨entries, hkind, hget⟩ := h
  exact ⟨⟨.of (key, entries), name, value?⟩,
    RawTree.mem_items_iff.2 ⟨RawTree.of_mem_kinds hkind, hget⟩, KindEntry.key_of _, rfl, rfl⟩

theorem space_eq_none (hi : i ∈ tree.items) (hloose : isMarked i.kind.key = false) :
    i.space = none := by
  rw [RawTree.isMarked_key (RawTree.mem_items_iff.1 hi).1] at hloose
  simp [Item.space, space, hloose]

/-- In the list of the entries, those before one are other entries of the tree. -/
theorem mem_items_of_before {before after : List Item} (h : tree.items = before ++ i :: after)
    (hj : j ∈ before) : j ∈ tree.items ∧ i ≠ j := by
  have hnodup := tree.nodup_items
  rw [h, List.nodup_middle, List.nodup_cons] at hnodup
  refine ⟨h ▸ List.mem_append_left _ hj, ?_⟩
  rintro rfl
  exact hnodup.1 (List.mem_append_left _ hj)

theorem mem_items_of_split {before after : List Item} (h : tree.items = before ++ i :: after) :
    i ∈ tree.items := by
  rw [h]
  exact List.mem_append_right _ List.mem_cons_self

/-! ## Places in use -/

/-- Every token of a lexicon was added by an entry of a tree, of a given form, other than a given
entry. -/
def HoldsOthers (tree : RawTree) (P : EntryForm → Prop) (i : Item) (d : Lexicon) : Prop :=
  ∀ σ name t, d.Holds (σ, name, t) → ∃ j ∈ tree.items, i ≠ j ∧ P j.form ∧
    σ = j.space ∧ name = j.name ∧ t.kind = j.kind.name

/-- The token that an entry adds is at the place of the entry and of its kind. -/
theorem place_of_adds {σ : Option String} {name : String} {t : Token}
    (h : AddsToken j (σ, name, t) ∨ AddsAlias j (σ, name, t)) :
    σ = j.space ∧ name = j.name ∧ t.kind = j.kind.name := by
  rcases h with ⟨description, -, hc⟩ | ⟨pointer, target, description, -, -, -, hc⟩
  · cases hc
    exact ⟨rfl, rfl, rfl⟩
  · cases hc
    exact ⟨rfl, rfl, rfl⟩

/-- A store bars an entry because its name is none, or because the entry is of a loose kind and
another loose kind has an entry of this name. -/
theorem cases_of_bars {P : EntryForm → Prop} (hname : isName i.kind.name) (hd : Bare locale d)
    (hi : i ∈ tree.items) (hn : i.name ≠ defaultName) (hothers : HoldsOthers tree P i d)
    (h : (d.slice i.space).Bars i.name i.kind.name e) :
    (isName i.name = false ∧ e = .badToken locale (stripMark i.kind.key) i.name .badName) ∨
      ∃ j ∈ tree.items, P j.form ∧ i.name = j.name ∧
        (isMarked i.kind.key = false ∧ isMarked j.kind.key = false ∧ i.kind.key ≠ j.kind.key) ∧
          e = .duplicatedToken locale i.name i.kind.key j.kind.key := by
  have hk := (RawTree.mem_items_iff.1 hi).1
  cases h with
  | badKind hbad => exact absurd hname (by simp [hbad])
  | badName _ hbad =>
    refine .inl ⟨by simpa [hn] using hbad, ?_⟩
    rw [hd.locale_slice, RawTree.stripMark_key hk]
  | @used t _ _ _ hu =>
    obtain ⟨j, hj, hne, hp, hσ, hij, hkind⟩ := hothers i.space i.name t hu
    have hloose := loose_of_same_place hi hj hne hσ hij
    refine .inr ⟨j, hj, hp, hij, hloose, ?_⟩
    rw [hd.locale_slice, hkind, RawTree.key_eq_name hk hloose.1,
      RawTree.key_eq_name (RawTree.mem_items_iff.1 hj).1 hloose.2.1]

/-! ## Names of kinds -/

/-- The check of the names of the kinds fails for a bad name. -/
theorem badKind_of_check (h : tree.toList.mapM (KindEntry.check locale) = .error e) :
    ∃ key, tree.BadKind key ∧ e = .badKind locale key := by
  obtain ⟨⟨key, entries⟩, hmem, hcheck⟩ := mapM_eq_error h
  have hget := SortedMap.mem_toList_iff.1 hmem
  have hcontains : tree.contains key := by
    rw [SortedMap.contains_eq_isSome, hget]
    rfl
  simp only [KindEntry.check] at hcheck
  split at hcheck
  case isTrue hbad =>
    cases hcheck
    refine ⟨key, ⟨hcontains, ?_⟩, rfl⟩
    rintro ⟨hn, hr⟩
    simp [hn, hr] at hbad
  case isFalse => cases hcheck

theorem not_badKind_of_names
    (h : ∀ e ∈ tree.toList, isName (stripMark e.1) ∧ isReservedKey (stripMark e.1) = false)
    (key : String) : ¬tree.BadKind key := by
  rintro ⟨hcontains, hbad⟩
  rw [SortedMap.contains_eq_isSome, Option.isSome_iff_exists] at hcontains
  obtain ⟨entries, hget⟩ := hcontains
  exact hbad (h (key, entries) (SortedMap.mem_toList_iff.2 hget))

/-! ## True tokens -/

/-- One step of the first pass fails for a fault of a true token. -/
theorem tokenFault_of_loadToken (hname : isName i.kind.name) (hd : Bare locale d)
    (hi : i ∈ tree.items) (hothers : HoldsOthers tree EntryForm.IsPlain i d)
    (h : loadToken i.kind d (i.name, i.value?) = .error e) : tree.TokenFault locale e := by
  have hentry := hasEntry_of_mem_items hi
  rw [loadToken_eq] at h
  split at h
  case h_1 hf =>
    obtain ⟨hn, hv⟩ := Item.form_eq_missing_iff.1 hf
    cases h
    rw [hv] at hentry
    rw [hd.locale_eq, ← RawTree.stripMark_key (RawTree.mem_items_iff.1 hi).1]
    exact .missing hentry hn
  case h_2 description hf =>
    obtain ⟨hn, hv, hm⟩ := Item.form_eq_plain_iff.1 hf
    rw [hv] at hentry
    have hbars := (addToken_eq_error_iff hd.built).1 h
    rcases cases_of_bars hname hd hi hn hothers hbars with
      ⟨hbad, rfl⟩ | ⟨j, hj, ⟨description', hf'⟩, hij, ⟨hloose, hloose', hkeys⟩, rfl⟩
    · exact .badName hentry hn hm hbad
    · obtain ⟨-, hv', hm'⟩ := Item.form_eq_plain_iff.1 hf'
      have hentry' := hasEntry_of_mem_items hj
      rw [← hij, hv'] at hentry'
      exact .duplicated hentry hentry' hn hm hm' hloose hloose' hkeys
  case h_3 => cases h

/-- The error of the first pass blames a true token. -/
theorem tokenFault_of_loadTokens (hnames : ∀ k ∈ tree.kinds, isName k.name)
    (h : tree.kinds.foldlM loadTokens (empty locale) = .error e) : tree.TokenFault locale e := by
  rw [foldlM_loadTokens] at h
  obtain ⟨before, i, after, d, hsplit, hbefore, hstep⟩ := exists_of_foldlM_eq_error h
  have hi := mem_items_of_split hsplit
  obtain ⟨hd, hholds⟩ : Bare locale d ∧
      ∀ c, d.Holds c ↔ (empty locale).Holds c ∨ ∃ j ∈ before, AddsToken j c := by
    refine foldlM_holds_iff (Bare locale) (fun j _ s s' hs h => ?_) (bare_empty locale) hbefore
    obtain ⟨hs', hadds, -⟩ := next_loadToken hs h
    exact ⟨hs', hadds⟩
  refine tokenFault_of_loadToken (hnames _ (RawTree.mem_items_iff.1 hi).1) hd hi ?_ hstep
  intro σ name t ht
  rcases (hholds _).1 ht with ht | ⟨j, hj, hadds⟩
  · exact absurd ht (not_holds_empty locale _)
  · obtain ⟨hj, hne⟩ := mem_items_of_before hsplit hj
    exact ⟨j, hj, hne, hadds.isPlain, place_of_adds (.inl hadds)⟩

/-- A first pass that ends well finds no fault of a true token. -/
theorem not_tokenFault_of_loadTokens (hnames : ∀ k ∈ tree.kinds, isName k.name)
    (h : tree.kinds.foldlM loadTokens (empty locale) = .ok d) : ¬tree.TokenFault locale e := by
  obtain ⟨hfit, hapart⟩ := (exists_loadTokens_iff hnames (bare_empty locale)).1 ⟨d, h⟩
  intro hfault
  cases hfault with
  | missing hentry hn =>
    obtain ⟨i, hi, rfl, rfl, hv⟩ := exists_item_of_hasEntry hentry
    exact (hfit i hi).1.1 (Item.form_eq_missing_iff.2 ⟨hn, hv⟩)
  | badName hentry hn hm hbad =>
    obtain ⟨i, hi, rfl, rfl, hv⟩ := exists_item_of_hasEntry hentry
    have hname := (hfit i hi).1.2 ⟨_, Item.form_eq_plain_iff.2 ⟨hn, hv, hm⟩⟩
    exact absurd hname (by simp [hbad])
  | duplicated hentry hentry' hn hm hm' hloose hloose' hne =>
    obtain ⟨i, hi, rfl, rfl, hv⟩ := exists_item_of_hasEntry hentry
    obtain ⟨j, hj, rfl, hij, hv'⟩ := exists_item_of_hasEntry hentry'
    have hσ : i.space = j.space :=
      (space_eq_none hi hloose).trans (space_eq_none hj hloose').symm
    refine apart_of_pairwise hapart hi hj (fun h => hne (h ▸ rfl)) ?_ ?_ ⟨hσ, hij.symm⟩
    · exact ⟨_, Item.form_eq_plain_iff.2 ⟨hn, hv, hm⟩⟩
    · exact ⟨_, Item.form_eq_plain_iff.2 ⟨hij.symm ▸ hn, hv', hm'⟩⟩

/-! ## Aliases -/

/-- One step of the second pass fails for a fault of an alias. -/
theorem aliasFault_of_loadAlias (hname : isName i.kind.name) (hd : Bare locale d)
    (hfilled : Filled tree.kinds d) (hi : i ∈ tree.items)
    (hothers : i.form.IsPointer → HoldsOthers tree (fun _ => True) i d)
    (h : loadAlias i.kind d (i.name, i.value?) = .error e) : tree.AliasFault locale e := by
  obtain ⟨hk, hget⟩ := RawTree.mem_items_iff.1 hi
  have hentry := hasEntry_of_mem_items hi
  rw [loadAlias_eq] at h
  split at h
  case h_1 pointer hf =>
    obtain ⟨hn, hv, hm⟩ := Item.form_eq_pointer_iff.1 hf
    rw [hv] at hentry hget
    rcases bind_eq_error_iff.1 h with h | ⟨target, htarget, h⟩
    · obtain ⟨flaw, hstrays, rfl⟩ := resolve_eq_error_iff.1 h
      rw [hd.locale_eq, ← RawTree.stripMark_key hk]
      exact .strays (RawTree.get?_key hk) hget hn hm hstrays
    · -- The target is in the store, so only the name of the alias can be refused.
      obtain ⟨_, -, hfound⟩ := hfilled.token?_of_follow hk (resolve_eq_ok_iff.1 htarget)
      have hbars := (addAlias_eq_error_iff hd.built hfound).1 h
      rcases cases_of_bars hname hd hi hn (hothers ⟨_, hf⟩) hbars with
        ⟨hbad, rfl⟩ | ⟨j, hj, -, hij, ⟨hloose, hloose', hkeys⟩, rfl⟩
      · exact .badName hentry hn hm hbad
      · have hentry' := hasEntry_of_mem_items hj
        rw [← hij] at hentry'
        exact .duplicated hentry hentry' hn hm hloose hloose' hkeys
  case h_2 => cases h

/-- The error of the second pass blames an alias. -/
theorem aliasFault_of_loadAliases (hnames : ∀ k ∈ tree.kinds, isName k.name)
    (hd : Bare locale d) (hfilled : Filled tree.kinds d)
    (hholds : ∀ c, d.Holds c ↔ ∃ i ∈ tree.items, AddsToken i c)
    (h : tree.kinds.foldlM loadAliases d = .error e) : tree.AliasFault locale e := by
  rw [foldlM_loadAliases] at h
  obtain ⟨before, i, after, d', hsplit, hbefore, hstep⟩ := exists_of_foldlM_eq_error h
  have hi := mem_items_of_split hsplit
  obtain ⟨⟨hd', hfilled'⟩, hholds'⟩ : (Bare locale d' ∧ Filled tree.kinds d') ∧
      ∀ c, d'.Holds c ↔ d.Holds c ∨ ∃ j ∈ before, AddsAlias j c := by
    refine foldlM_holds_iff (fun s => Bare locale s ∧ Filled tree.kinds s)
      (fun j hj s s' hs h => ?_) ⟨hd, hfilled⟩ hbefore
    have hk := (RawTree.mem_items_iff.1 (mem_items_of_before hsplit hj).1).1
    obtain ⟨hs', hadds, -⟩ := next_loadAlias hs.1 hs.2 hk h
    exact ⟨hs', hadds⟩
  refine aliasFault_of_loadAlias (hnames _ (RawTree.mem_items_iff.1 hi).1) hd' hfilled' hi ?_ hstep
  rintro ⟨pointer, hf⟩ σ name t ht
  rcases (hholds' _).1 ht with ht | ⟨j, hj, hadds⟩
  · obtain ⟨j, hj, hadds⟩ := (hholds _).1 ht
    refine ⟨j, hj, ?_, trivial, place_of_adds (.inl hadds)⟩
    -- An alias is no true token.
    rintro rfl
    obtain ⟨description, hf'⟩ := hadds.isPlain
    rw [hf] at hf'
    cases hf'
  · obtain ⟨hj, hne⟩ := mem_items_of_before hsplit hj
    exact ⟨j, hj, hne, trivial, place_of_adds (.inr hadds)⟩

/-- When the aliases are fit and no place is taken twice, there is no fault of an alias. -/
theorem not_aliasFault_of_fit (hfit : ∀ i ∈ tree.items, FitAlias i) (hspaced : Spaced tree) :
    ¬tree.AliasFault locale e := by
  intro hfault
  cases hfault with
  | @strays key name pointer entries flaw hkind hentry hn hm hstrays =>
    let i : Item := ⟨.of (key, entries), name, some pointer⟩
    have hi : i ∈ tree.items := RawTree.mem_items_iff.2 ⟨RawTree.of_mem_kinds hkind, hentry⟩
    obtain ⟨-, target, htarget⟩ :=
      hfit i hi pointer (Item.form_eq_pointer_iff.2 ⟨hn, rfl, hm⟩)
    have hfollow := htarget.symm.trans (RawKind.follow_eq_error_iff.2 hstrays)
    cases hfollow
  | badName hentry hn hm hbad =>
    obtain ⟨i, hi, rfl, rfl, hv⟩ := exists_item_of_hasEntry hentry
    have hname := (hfit i hi _ (Item.form_eq_pointer_iff.2 ⟨hn, hv, hm⟩)).1
    exact absurd hname (by simp [hbad])
  | duplicated hentry hentry' hn hm hloose hloose' hne =>
    obtain ⟨i, hi, rfl, rfl, -⟩ := exists_item_of_hasEntry hentry
    obtain ⟨j, hj, rfl, hij, -⟩ := exists_item_of_hasEntry hentry'
    have hσ : i.space = j.space :=
      (space_eq_none hi hloose).trans (space_eq_none hj hloose').symm
    exact hne (hspaced i hi j hj hn hσ hij.symm ▸ rfl)

/-! ## Defaults -/

/-- One step of the third pass fails for a fault of a default. -/
theorem defaultFault_of_loadDefault {k : KindEntry} (hk : k ∈ tree.kinds) (hd : d.Built)
    (hlocale : d.locale = locale) (hfilled : Filled tree.kinds d)
    (h : loadDefault d k = .error e) : tree.DefaultFault locale e := by
  unfold loadDefault at h
  split at h
  case h_1 => cases h
  case h_2 hget =>
    cases h
    rw [hlocale, ← RawTree.stripMark_key hk]
    exact .missing ⟨k.entries, RawTree.get?_key hk, hget⟩
  case h_3 pointer hget =>
    rcases bind_eq_error_iff.1 h with h | ⟨target, htarget, h⟩
    · obtain ⟨flaw, hstrays, rfl⟩ := resolve_eq_error_iff.1 h
      rw [hlocale, ← RawTree.stripMark_key hk]
      exact .strays (RawTree.get?_key hk) hget hstrays
    · -- The target is in the store, so the store does not refuse it.
      obtain ⟨_, -, hfound⟩ := hfilled.token?_of_follow hk (resolve_eq_ok_iff.1 htarget)
      obtain ⟨d', hd'⟩ := exists_setDefault hd hfound
      rw [hd'] at h
      cases h

/-- The error of the third pass blames a default. -/
theorem defaultFault_of_loadDefaults (hd : Bare locale d) (hfilled : Filled tree.kinds d)
    (h : tree.kinds.foldlM loadDefault d = .error e) : tree.DefaultFault locale e := by
  obtain ⟨before, k, after, d', hsplit, hbefore, hstep⟩ := exists_of_foldlM_eq_error h
  have hmem {l : KindEntry} (hl : l ∈ before) : l ∈ tree.kinds :=
    hsplit ▸ List.mem_append_left _ hl
  have hk : k ∈ tree.kinds := hsplit ▸ List.mem_append_right _ List.mem_cons_self
  have hsettled := (foldlM_holds_iff (Settled tree.kinds d) (fun l hl s s' hs h =>
    next_loadDefault (distinct_kinds tree) hfilled hs (hmem hl) h) hd.settled hbefore).1
  exact defaultFault_of_loadDefault hk hsettled.built (hsettled.locale_eq.trans hd.locale_eq)
    (hsettled.filled hfilled) hstep

/-! ## Loading -/

/-- A tree is refused in the order of the passes. -/
theorem refuses_of_load (h : load locale tree = .error e) : tree.Refuses locale e := by
  unfold load at h
  rcases bind_eq_error_iff.1 h with h | ⟨kinds, hkinds, h⟩
  · obtain ⟨key, hbad, rfl⟩ := badKind_of_check h
    exact .kind hbad
  obtain ⟨hchecked, rfl⟩ := (mapM_eq_ok_iff KindEntry.check_eq_ok_iff).1 hkinds
  have hnames := isName_of_mem_kinds hchecked
  have hkind := not_badKind_of_names hchecked
  rcases bind_eq_error_iff.1 h with h | ⟨d₁, h₁, h⟩
  · exact .token hkind (tokenFault_of_loadTokens hnames h)
  have htoken (e') : ¬tree.TokenFault locale e' := not_tokenFault_of_loadTokens hnames h₁
  have hbare₁ := (holds_loadTokens_iff (bare_empty locale) h₁).1
  have hfilled₁ := filled_loadTokens (bare_empty locale) h₁
  have hholds := holds_loadTokens_empty h₁
  rcases bind_eq_error_iff.1 h with h | ⟨d₂, h₂, h⟩
  · exact .pointer hkind htoken (aliasFault_of_loadAliases hnames hbare₁ hfilled₁ hholds h)
  obtain ⟨hfit, hspaced⟩ := fit_of_passes hnames h₁ h₂
  obtain ⟨hbare₂, hfilled₂⟩ := (holds_loadAliases_iff hbare₁ hfilled₁ h₂).1
  exact .default hkind htoken
    (fun e' => not_aliasFault_of_fit (fun i hi => (hfit i hi).2) hspaced)
    (defaultFault_of_loadDefaults hbare₂ hfilled₂ h)

/-- The error of loading is right about the tree: what it names is there, and at fault.  A bad name
of a kind is blamed before anything else, then a true token or an entry without description, then
an alias, and a default only when nothing else is at fault. -/
theorem load_error_blames (h : load locale tree = .error e) :
    tree.Attests locale e ∧
      ((∃ key, tree.BadKind key) ↔ ∃ key, e = .badKind locale key) ∧
      ((∀ key, ¬tree.BadKind key) → (∃ e', tree.TokenFault locale e') →
        tree.TokenFault locale e) ∧
      ((∀ key, ¬tree.BadKind key) → (∀ e', ¬tree.TokenFault locale e') →
        (∃ e', tree.AliasFault locale e') → tree.AliasFault locale e) ∧
      ((∀ key, ¬tree.BadKind key) → (∀ e', ¬tree.TokenFault locale e') →
        (∀ e', ¬tree.AliasFault locale e') → tree.DefaultFault locale e) ∧
      ((∃ kind target flaw, e = .badAlias locale kind defaultName target flaw) ↔
        (∀ key, ¬tree.BadKind key) ∧ (∀ e', ¬tree.TokenFault locale e') ∧
          ∀ e', ¬tree.AliasFault locale e') := by
  have hrefuses := refuses_of_load h
  exact ⟨hrefuses.attests, hrefuses.exists_badKind_iff, hrefuses.tokenFault,
    hrefuses.aliasFault, hrefuses.defaultFault, hrefuses.exists_default_iff⟩

/-- A pointer that leads nowhere is blamed before a default without value. -/
theorem load_error_blames_alias :
    let tree : RawTree := SortedMap.ofList
      [("gender", SortedMap.ofList [("default", none), ("he", some "@male")])]
    let e : LoadError := .badAlias "en" "gender" "he" "@male" .leadsNowhere
    load "en" tree = .error e ∧ tree.Attests "en" e ∧ ¬∃ key, tree.BadKind key := by
  intro tree e
  have h : load "en" tree = .error e := by decide +kernel
  obtain ⟨hattests, hkind, -⟩ := load_error_blames h
  refine ⟨h, hattests, fun hbad => ?_⟩
  obtain ⟨key, hkey⟩ := hkind.1 hbad
  exact LoadError.noConfusion hkey

end Lexicon

end Inflection
