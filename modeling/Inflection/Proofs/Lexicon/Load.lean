import Inflection.Proofs.Lexicon.Loadable
import Inflection.Proofs.Lexicon.Passes
import Mathlib.Data.List.Pairwise

/-!
# What loading accepts and gives

The passes of loading end well when every entry is fit for them and no place is taken twice.  Said
of the tree itself, this is `RawTree.Loadable`, and what the passes add is what the tree describes.

## Main statements

* `load_eq_ok_iff`: loading ends well for the loadable trees, and gives the one lexicon that the
  tree describes.
* `built_of_load`, `Reachable.toBuilt`: a loaded lexicon is built by registrations.
-/

namespace Inflection

namespace Lexicon

/-! ## Entries that can be loaded -/

/-- An entry is fit for the first two passes when it has a name and a value, and its value, if a
pointer, leads to a true token. -/
theorem fit_iff {i : Item} :
    FitToken i ∧ FitAlias i ↔ (i.name ≠ defaultName → isName i.name ∧ ∃ value,
      i.value? = some value ∧
        (isMarked value → ∃ n ≤ 64, ∃ target, i.kind.entries.Leads n value target)) := by
  refine ⟨?_, ?_⟩
  · rintro ⟨⟨hmissing, hplain⟩, hpointer⟩ hn
    cases hv : i.value? with
    | none => exact absurd (Item.form_eq_missing_iff.2 ⟨hn, hv⟩) hmissing
    | some value =>
      cases hm : isMarked value with
      | false =>
        have hf := Item.form_eq_plain_iff.2 ⟨hn, hv, hm⟩
        exact ⟨hplain ⟨value, hf⟩, value, rfl, fun h => nomatch h.symm.trans hm⟩
      | true =>
        obtain ⟨hname, target, htarget⟩ :=
          hpointer value (Item.form_eq_pointer_iff.2 ⟨hn, hv, hm⟩)
        obtain ⟨n, hle, hleads⟩ := RawKind.follow_eq_ok_iff.1 htarget
        exact ⟨hname, value, rfl, fun _ => ⟨n, hle, target, hleads⟩⟩
  · intro h
    refine ⟨⟨fun hf => ?_, ?_⟩, fun pointer hf => ?_⟩
    · obtain ⟨hn, hv⟩ := Item.form_eq_missing_iff.1 hf
      obtain ⟨-, value, hvalue, -⟩ := h hn
      rw [hv] at hvalue
      cases hvalue
    · intro h
      obtain ⟨description, hf⟩ := h
      exact (h (Item.form_eq_plain_iff.1 hf).1).1
    · obtain ⟨hn, hv, hm⟩ := Item.form_eq_pointer_iff.1 hf
      obtain ⟨hname, value, hvalue, hwalk⟩ := h hn
      rw [hv] at hvalue
      cases hvalue
      obtain ⟨n, hle, target, hleads⟩ := hwalk hm
      exact ⟨hname, target, RawKind.follow_eq_ok_iff.2 ⟨n, hle, hleads⟩⟩

theorem fitDefault_iff {k : KindEntry} :
    FitDefault k ↔ ∀ value?, k.entries.get? defaultName = some value? → ∃ pointer,
      value? = some pointer ∧ ∃ n ≤ 64, ∃ target, k.entries.Leads n pointer target := by
  unfold FitDefault
  refine forall₂_congr fun value? _ => exists_congr ?_
  intro pointer
  simp only [RawKind.follow_eq_ok_iff]
  refine ⟨?_, ?_⟩
  · intro h
    obtain ⟨target, hv, n, hle, hleads⟩ := h
    exact ⟨hv, n, hle, target, hleads⟩
  · intro h
    obtain ⟨hv, n, hle, target, hleads⟩ := h
    exact ⟨target, hv, n, hle, hleads⟩

/-! ## Places -/

/-- No two entries of a tree but defaults take the same place. -/
def Spaced (tree : RawTree) : Prop :=
  ∀ i ∈ tree.items, ∀ j ∈ tree.items, i.name ≠ defaultName → i.space = j.space →
    i.name = j.name → i = j

theorem key_eq {k l : KindEntry} (hσ : space k.strict k.name = space l.strict l.name)
    (hn : k.name = l.name) : k.key = l.key := by
  obtain ⟨name, strict, entries⟩ := k
  obtain ⟨name', strict', entries'⟩ := l
  cases hn
  cases strict <;> cases strict' <;> simp_all [space, KindEntry.key]

theorem distinct_kinds (tree : RawTree) : Distinct tree.kinds :=
  fun _ hk _ hl hσ hn => RawTree.eq_of_key_eq hk hl (key_eq hσ hn)

theorem eq_of_kind_eq {tree : RawTree} {i j : Item} (hi : i ∈ tree.items) (hj : j ∈ tree.items)
    (hk : i.kind = j.kind) (hn : i.name = j.name) : i = j := by
  have hgeti := (RawTree.mem_items_iff.1 hi).2
  have hgetj := (RawTree.mem_items_iff.1 hj).2
  obtain ⟨k, name, value?⟩ := i
  obtain ⟨k', name', value?'⟩ := j
  cases hk
  cases hn
  rw [hgeti] at hgetj
  cases hgetj
  rfl

/-- Different entries that take the same place are of different loose kinds. -/
theorem loose_of_same_place {tree : RawTree} {i j : Item} (hi : i ∈ tree.items)
    (hj : j ∈ tree.items) (hne : i ≠ j) (hσ : i.space = j.space) (hij : i.name = j.name) :
    isMarked i.kind.key = false ∧ isMarked j.kind.key = false ∧ i.kind.key ≠ j.kind.key := by
  have hki := (RawTree.mem_items_iff.1 hi).1
  have hkj := (RawTree.mem_items_iff.1 hj).1
  have hkey : i.kind.key ≠ j.kind.key := fun h =>
    hne (eq_of_kind_eq hi hj (RawTree.eq_of_key_eq hki hkj h) hij)
  rw [RawTree.isMarked_key hki, RawTree.isMarked_key hkj]
  cases hs : i.kind.strict with
  | true =>
    -- The namespace of a strict kind names it.
    have hname : j.kind.name = i.kind.name := by
      have h : j.kind.strict = true ∧ j.kind.name = i.kind.name := by
        simpa [Item.space, space, hs] using hσ.symm
      exact h.2
    exact absurd (key_eq hσ hname.symm) hkey
  | false =>
    have hs' : j.kind.strict = false := by
      simpa [Item.space, space, hs] using hσ.symm
    exact ⟨rfl, hs', hkey⟩

/-- Only entries of different loose kinds can take the same place. -/
theorem spaced_iff {tree : RawTree} :
    Spaced tree ↔ ∀ {key key' entries entries' name}, tree.get? key = some entries →
      tree.get? key' = some entries' → isMarked key = false → isMarked key' = false →
        entries.contains name → entries'.contains name → name ≠ defaultName → key = key' := by
  refine ⟨?_, ?_⟩
  · intro h key key' entries entries' name hget hget' hm hm' hc hc' hn
    obtain ⟨value?, hv⟩ := Option.isSome_iff_exists.1 hc
    obtain ⟨value?', hv'⟩ := Option.isSome_iff_exists.1 hc'
    have hij := h ⟨.of (key, entries), name, value?⟩
      (RawTree.mem_items_iff.2 ⟨RawTree.of_mem_kinds hget, hv⟩)
      ⟨.of (key', entries'), name, value?'⟩
      (RawTree.mem_items_iff.2 ⟨RawTree.of_mem_kinds hget', hv'⟩) hn
      (by simp [Item.space, KindEntry.of, space, hm, hm']) rfl
    have hkey := congrArg (fun i => i.kind.key) hij
    simpa only [KindEntry.key_of] using hkey
  · intro h i hi j hj hn hσ hij
    by_contra hne
    obtain ⟨hs, hs', hkey⟩ := loose_of_same_place hi hj hne hσ hij
    obtain ⟨hki, hgeti⟩ := RawTree.mem_items_iff.1 hi
    obtain ⟨hkj, hgetj⟩ := RawTree.mem_items_iff.1 hj
    rw [← hij] at hgetj
    exact hkey (h (RawTree.get?_key hki) (RawTree.get?_key hkj) hs hs'
      (Option.isSome_iff_exists.2 ⟨_, hgeti⟩) (Option.isSome_iff_exists.2 ⟨_, hgetj⟩) hn)

theorem pairwise_apart {tree : RawTree} (h : Spaced tree) {P : EntryForm → Prop}
    (hP : ∀ {i : Item}, P i.form → i.name ≠ defaultName) : tree.items.Pairwise (Apart P) :=
  tree.nodup_items.pairwise_of_forall_ne fun i hi j hj hne hp _ hc =>
    hne (h i hi j hj (hP hp) hc.1 hc.2)

theorem apart_of_pairwise {tree : RawTree} {P : EntryForm → Prop}
    (h : tree.items.Pairwise (Apart P)) {i j : Item} (hi : i ∈ tree.items) (hj : j ∈ tree.items)
    (hne : i ≠ j) : Apart P i j := by
  have hsymm : Std.Symm (Apart P) :=
    ⟨fun i j hij hj hi hc => hij hi hj ⟨hc.1.symm, hc.2.symm⟩⟩
  exact h.forall hi hj hne

theorem name_ne_of_isPlain {i : Item} (h : i.form.IsPlain) : i.name ≠ defaultName := by
  obtain ⟨description, hf⟩ := h
  exact (Item.form_eq_plain_iff.1 hf).1

theorem name_ne_of_isPointer {i : Item} (h : i.form.IsPointer) : i.name ≠ defaultName := by
  obtain ⟨pointer, hf⟩ := h
  exact (Item.form_eq_pointer_iff.1 hf).1

/-- What the first two passes ask of the places of the entries is that none is taken twice. -/
theorem spaced_iff_apart {tree : RawTree} {d : Lexicon} (hfit : ∀ i ∈ tree.items, FitToken i)
    (hd : ∀ c, d.Holds c ↔ ∃ i ∈ tree.items, AddsToken i c) :
    Spaced tree ↔ tree.items.Pairwise (Apart EntryForm.IsPlain) ∧
      (∀ i ∈ tree.items, Free EntryForm.IsPointer d i) ∧
        tree.items.Pairwise (Apart EntryForm.IsPointer) := by
  refine ⟨?_, ?_⟩
  · intro h
    refine ⟨pairwise_apart h name_ne_of_isPlain, fun i hi hp => ?_,
      pairwise_apart h name_ne_of_isPointer⟩
    refine Option.eq_none_iff_forall_ne_some.2 ?_
    intro t ht
    obtain ⟨j, hj, description, hf, hc⟩ := (hd (i.space, i.name, t)).1 ht
    simp only [Prod.mk.injEq] at hc
    have hij := h i hi j hj (name_ne_of_isPointer hp) hc.1 hc.2.1
    obtain ⟨pointer, hf'⟩ := hp
    rw [hij, hf] at hf'
    cases hf'
  · rintro ⟨hplain, hfree, hpointer⟩ i hi j hj hn hσ hij
    by_contra hne
    have hform {k : Item} (hk : k ∈ tree.items) (hn : k.name ≠ defaultName) :
        k.form.IsPlain ∨ k.form.IsPointer := by
      cases hf : k.form with
      | default => exact absurd (Item.form_eq_default_iff.1 hf) hn
      | missing => exact absurd hf (hfit k hk).1
      | plain description => exact .inl ⟨description, rfl⟩
      | pointer pointer => exact .inr ⟨pointer, rfl⟩
    -- A true token stands at its place after the first pass.
    have hclash {k l : Item} (hk : k ∈ tree.items) (hl : l ∈ tree.items) (hp : k.form.IsPlain)
        (hp' : l.form.IsPointer) : ¬(k.space = l.space ∧ k.name = l.name) := by
      rintro ⟨hσ, hkl⟩
      obtain ⟨description, hf⟩ := hp
      have hholds := (hd _).2 ⟨k, hk, description, hf, rfl⟩
      have hnone := hfree l hl hp'
      rw [← hσ, ← hkl] at hnone
      rw [Holds, hnone] at hholds
      cases hholds
    rcases hform hi hn with hi' | hi' <;> rcases hform hj (hij ▸ hn) with hj' | hj'
    · exact apart_of_pairwise hplain hi hj hne hi' hj' ⟨hσ, hij⟩
    · exact hclash hi hj hi' hj' ⟨hσ, hij⟩
    · exact hclash hj hi hj' hi' ⟨hσ.symm, hij.symm⟩
    · exact apart_of_pairwise hpointer hi hj hne hi' hj' ⟨hσ, hij⟩

/-! ## Loading -/

/-- Loading is the check of the names of the kinds and then the three passes. -/
theorem load_eq_ok_iff_passes {locale : String} {tree : RawTree} {d : Lexicon} :
    load locale tree = .ok d ↔
      (∀ e ∈ tree.toList, isName (stripMark e.1) ∧ isReservedKey (stripMark e.1) = false) ∧
        ∃ d₁ d₂, tree.kinds.foldlM loadTokens (empty locale) = .ok d₁ ∧
          tree.kinds.foldlM loadAliases d₁ = .ok d₂ ∧ tree.kinds.foldlM loadDefault d₂ = .ok d := by
  simp only [load, bind_eq_ok_iff, mapM_eq_ok_iff KindEntry.check_eq_ok_iff]
  refine ⟨?_, ?_⟩
  · intro h
    obtain ⟨kinds, ⟨hnames, rfl⟩, d₁, h₁, d₂, h₂, h₃⟩ := h
    exact ⟨hnames, d₁, d₂, h₁, h₂, h₃⟩
  · intro h
    obtain ⟨hnames, d₁, d₂, h₁, h₂, h₃⟩ := h
    exact ⟨_, ⟨hnames, rfl⟩, d₁, h₁, d₂, h₂, h₃⟩

/-- The names of the kinds of a tree, as far as the passes need them. -/
theorem isName_of_mem_kinds {tree : RawTree}
    (h : ∀ e ∈ tree.toList, isName (stripMark e.1) ∧ isReservedKey (stripMark e.1) = false) :
    ∀ k ∈ tree.kinds, isName k.name := by
  intro k hk
  obtain ⟨e, he, rfl⟩ := List.mem_map.1 hk
  exact (h e he).1

theorem not_holds_empty (locale : String) (c : Option String × String × Token) :
    ¬(empty locale).Holds c := by
  intro hc
  obtain ⟨σ, name, t⟩ := c
  cases σ <;> cases hc

theorem holds_loadTokens_empty {tree : RawTree} {locale : String} {d : Lexicon}
    (h : tree.kinds.foldlM loadTokens (empty locale) = .ok d) :
    ∀ c, d.Holds c ↔ ∃ i ∈ tree.items, AddsToken i c := fun c =>
  ((holds_loadTokens_iff (bare_empty locale) h).2 c).trans
    (or_iff_right (not_holds_empty locale c))

theorem free_empty (locale : String) (P : EntryForm → Prop) (i : Item) :
    Free P (empty locale) i := by
  intro _
  cases i.space <;> rfl

/-- When the first two passes end well, the entries are fit for them and take no place twice. -/
theorem fit_of_passes {tree : RawTree} {locale : String} {d₁ d₂ : Lexicon}
    (hks : ∀ k ∈ tree.kinds, isName k.name)
    (h₁ : tree.kinds.foldlM loadTokens (empty locale) = .ok d₁)
    (h₂ : tree.kinds.foldlM loadAliases d₁ = .ok d₂) :
    (∀ i ∈ tree.items, FitToken i ∧ FitAlias i) ∧ Spaced tree := by
  have hbare₁ := (holds_loadTokens_iff (bare_empty locale) h₁).1
  have hfilled₁ := filled_loadTokens (bare_empty locale) h₁
  obtain ⟨htoken, hplain⟩ := (exists_loadTokens_iff hks (bare_empty locale)).1 ⟨d₁, h₁⟩
  obtain ⟨halias, hpointer⟩ := (exists_loadAliases_iff hks hbare₁ hfilled₁).1 ⟨d₂, h₂⟩
  refine ⟨fun i hi => ⟨(htoken i hi).1, (halias i hi).1⟩, ?_⟩
  exact (spaced_iff_apart (fun i hi => (htoken i hi).1) (holds_loadTokens_empty h₁)).2
    ⟨hplain, fun i hi => (halias i hi).2, hpointer⟩

/-- A tree that loads is loadable. -/
theorem loadable_of_load {locale : String} {tree : RawTree} {d : Lexicon}
    (h : load locale tree = .ok d) : tree.Loadable := by
  obtain ⟨hnames, d₁, d₂, h₁, h₂, h₃⟩ := load_eq_ok_iff_passes.1 h
  have hks := isName_of_mem_kinds hnames
  have hbare₁ := (holds_loadTokens_iff (bare_empty locale) h₁).1
  have hfilled₁ := filled_loadTokens (bare_empty locale) h₁
  obtain ⟨hbare₂, hfilled₂⟩ := (holds_loadAliases_iff hbare₁ hfilled₁ h₂).1
  have hdefault := (exists_loadDefaults_iff (distinct_kinds tree) hbare₂ hfilled₂).1 ⟨d, h₃⟩
  obtain ⟨hitems, hspaced⟩ := fit_of_passes hks h₁ h₂
  have hfit {key : String} {entries : RawKind} {name : String} {value? : Option String}
      (hget : tree.get? key = some entries) (hv : entries.get? name = some value?) :
      name ≠ defaultName → isName name ∧ ∃ value, value? = some value ∧
        (isMarked value → ∃ n ≤ 64, ∃ target, entries.Leads n value target) := by
    let i : Item := ⟨.of (key, entries), name, value?⟩
    have hi : i ∈ tree.items := RawTree.mem_items_iff.2 ⟨RawTree.of_mem_kinds hget, hv⟩
    exact fit_iff.1 (hitems i hi)
  constructor
  case kind =>
    intro key entries hget
    exact hnames (key, entries) (SortedMap.mem_toList_iff.2 hget)
  case entry =>
    intro key entries name value? hget hv hn
    obtain ⟨hname, value, hvalue, -⟩ := hfit hget hv hn
    exact ⟨hname, value, hvalue⟩
  case loose => exact spaced_iff.1 hspaced
  case pointer =>
    intro key entries name pointer hget hv hn hm
    obtain ⟨-, value, hvalue, hwalk⟩ := hfit hget hv hn
    cases hvalue
    exact hwalk hm
  case default =>
    intro key entries value? hget hv
    exact fitDefault_iff.1 (hdefault _ (RawTree.of_mem_kinds hget)) value? hv

/-- A loadable tree loads. -/
theorem exists_load_of_loadable {tree : RawTree} (h : tree.Loadable) (locale : String) :
    ∃ d, load locale tree = .ok d := by
  have hnames : ∀ e ∈ tree.toList,
      isName (stripMark e.1) ∧ isReservedKey (stripMark e.1) = false :=
    fun e he => h.kind (SortedMap.mem_toList_iff.1 he)
  have hks := isName_of_mem_kinds hnames
  have hfit (i : Item) (hi : i ∈ tree.items) : FitToken i ∧ FitAlias i := by
    obtain ⟨hk, hv⟩ := RawTree.mem_items_iff.1 hi
    have hget := RawTree.get?_key hk
    refine fit_iff.2 ?_
    intro hn
    obtain ⟨hname, value, hvalue⟩ := h.entry hget hv hn
    rw [hvalue] at hv
    exact ⟨hname, value, hvalue, fun hm => h.pointer hget hv hn hm⟩
  have hspaced := spaced_iff.2 h.loose
  obtain ⟨d₁, h₁⟩ := (exists_loadTokens_iff hks (bare_empty locale)).2
    ⟨fun i hi => ⟨(hfit i hi).1, free_empty locale _ i⟩,
      pairwise_apart hspaced name_ne_of_isPlain⟩
  have hbare₁ := (holds_loadTokens_iff (bare_empty locale) h₁).1
  have hfilled₁ := filled_loadTokens (bare_empty locale) h₁
  obtain ⟨-, hfree, hpointer⟩ :=
    (spaced_iff_apart (fun i hi => (hfit i hi).1) (holds_loadTokens_empty h₁)).1 hspaced
  obtain ⟨d₂, h₂⟩ := (exists_loadAliases_iff hks hbare₁ hfilled₁).2
    ⟨fun i hi => ⟨(hfit i hi).2, hfree i hi⟩, hpointer⟩
  obtain ⟨hbare₂, hfilled₂⟩ := (holds_loadAliases_iff hbare₁ hfilled₁ h₂).1
  obtain ⟨d, h₃⟩ := (exists_loadDefaults_iff (distinct_kinds tree) hbare₂ hfilled₂).2
    fun k hk => fitDefault_iff.2 fun value? hv => h.default (RawTree.get?_key hk) hv
  exact ⟨d, load_eq_ok_iff_passes.2 ⟨hnames, d₁, d₂, h₁, h₂, h₃⟩⟩

/-! ## What a loaded lexicon holds -/

/-- The first two passes add the tokens that the entries give. -/
theorem adds_iff_gives {tree : RawTree} {σ : Option String} {name : String} {t : Token} :
    (∃ i ∈ tree.items, AddsToken i (σ, name, t) ∨ AddsAlias i (σ, name, t)) ↔
      ∃ k ∈ tree.kinds, space k.strict k.name = σ ∧ k.entries.Gives k.name name t := by
  refine ⟨?_, ?_⟩
  · intro h
    obtain ⟨i, hi, hadds⟩ := h
    rcases hadds with ⟨description, hf, hc⟩ | ⟨pointer, target, description, hf, hfollow, hget, hc⟩
    · obtain ⟨hk, hv⟩ := RawTree.mem_items_iff.1 hi
      obtain ⟨hn, hvalue, hm⟩ := Item.form_eq_plain_iff.1 hf
      cases hc
      exact ⟨i.kind, hk, rfl, .plain hn (hvalue ▸ hv) hm⟩
    · obtain ⟨hk, hv⟩ := RawTree.mem_items_iff.1 hi
      obtain ⟨hn, hvalue, hm⟩ := Item.form_eq_pointer_iff.1 hf
      obtain ⟨n, hle, hleads⟩ := RawKind.follow_eq_ok_iff.1 hfollow
      cases hc
      exact ⟨i.kind, hk, rfl, .pointer hn (hvalue ▸ hv) hm hle hleads hget⟩
  · intro h
    obtain ⟨k, hk, rfl, hgives⟩ := h
    cases hgives with
    | @plain description hn hv hm =>
      exact ⟨⟨k, name, some description⟩, RawTree.mem_items_iff.2 ⟨hk, hv⟩,
        .inl ⟨description, Item.form_eq_plain_iff.2 ⟨hn, rfl, hm⟩, rfl⟩⟩
    | @pointer n pointer target description hn hv hm hle hleads hget =>
      exact ⟨⟨k, name, some pointer⟩, RawTree.mem_items_iff.2 ⟨hk, hv⟩,
        .inr ⟨pointer, target, description, Item.form_eq_pointer_iff.2 ⟨hn, rfl, hm⟩,
          RawKind.follow_eq_ok_iff.2 ⟨n, hle, hleads⟩, hget, rfl⟩⟩

theorem addsDefault_iff {k : KindEntry} {σ : Option String} {kind target : String} :
    AddsDefault k (σ, kind, target) ↔
      space k.strict k.name = σ ∧ k.name = kind ∧ k.entries.HasDefault target := by
  unfold AddsDefault RawKind.HasDefault
  simp only [RawKind.follow_eq_ok_iff]
  refine ⟨?_, ?_⟩
  · intro h
    obtain ⟨pointer, target', hget, ⟨n, hle, hleads⟩, hc⟩ := h
    cases hc
    exact ⟨rfl, rfl, pointer, hget, n, hle, hleads⟩
  · intro h
    obtain ⟨rfl, rfl, pointer, hget, n, hle, hleads⟩ := h
    exact ⟨pointer, target, hget, ⟨n, hle, hleads⟩, rfl⟩

/-- What a loaded lexicon holds in each namespace. -/
structure Reflects (tree : RawTree) (locale : String) (d : Lexicon) : Prop where
  built : d.Built
  locale_eq : d.locale = locale
  locale_slice : ∀ σ, (d.slice σ).locale = locale
  token_iff : ∀ σ {name t}, (d.slice σ).tokens.get? name = some t ↔
    ∃ k ∈ tree.kinds, space k.strict k.name = σ ∧ k.entries.Gives k.name name t
  default_iff : ∀ σ {kind target}, (d.slice σ).default? kind = some target ↔
    ∃ k ∈ tree.kinds, space k.strict k.name = σ ∧ k.name = kind ∧ k.entries.HasDefault target

theorem reflects_of_load {locale : String} {tree : RawTree} {d : Lexicon}
    (h : load locale tree = .ok d) : Reflects tree locale d := by
  obtain ⟨hnames, d₁, d₂, h₁, h₂, h₃⟩ := load_eq_ok_iff_passes.1 h
  have hbare₁ := (holds_loadTokens_iff (bare_empty locale) h₁).1
  have hfilled₁ := filled_loadTokens (bare_empty locale) h₁
  obtain ⟨⟨hbare₂, hfilled₂⟩, hholds₂⟩ := holds_loadAliases_iff hbare₁ hfilled₁ h₂
  obtain ⟨hsettled, hdefault⟩ := holds_loadDefaults_iff (distinct_kinds tree) hbare₂ hfilled₂ h₃
  refine ⟨hsettled.built, hsettled.locale_eq.trans hbare₂.locale_eq,
    fun σ => (hsettled.locale_slice σ).trans (hbare₂.locale_slice σ), fun σ {name t} => ?_,
    fun σ {kind target} => ?_⟩
  · rw [hsettled.tokens_eq, ← adds_iff_gives]
    refine (hholds₂ (σ, name, t)).trans ?_
    rw [holds_loadTokens_empty h₁, ← exists_or]
    exact exists_congr fun i => and_or_left.symm
  · refine (hdefault (σ, kind, target)).trans ?_
    simp only [addsDefault_iff]

/-- A loaded lexicon is built by registrations. -/
theorem built_of_load {locale : String} {tree : RawTree} {d : Lexicon}
    (h : load locale tree = .ok d) : d.Built := (reflects_of_load h).built

theorem Reflects.describes {tree : RawTree} {locale : String} {d : Lexicon}
    (h : Reflects tree locale d) : tree.Describes locale d where
  locale_eq := by
    have hstrict := h.locale_slice (some "")
    rw [slice, StrictStore.locale_slice] at hstrict
    exact ⟨h.locale_eq, h.locale_slice none, hstrict⟩
  loose {name t} :=
    (h.token_iff none).trans
      (RawTree.exists_loose_kind_iff (P := fun kind entries => entries.Gives kind name t))
  strict {name kind t} := by
    rw [← StrictStore.get?_slice]
    exact (h.token_iff (some kind)).trans
      (RawTree.exists_strict_kind_iff (P := fun kind entries => entries.Gives kind name t))
  default_loose {kind target} := by
    refine (h.default_iff none).trans ((RawTree.exists_loose_kind_iff
      (P := fun kind' entries => kind' = kind ∧ entries.HasDefault target)).trans ?_)
    refine ⟨?_, ?_⟩
    · intro h
      obtain ⟨_, entries, hget, hm, rfl, hdefault⟩ := h
      exact ⟨entries, hget, hm, hdefault⟩
    · intro h
      obtain ⟨entries, hget, hm, hdefault⟩ := h
      exact ⟨kind, entries, hget, hm, rfl, hdefault⟩
  default_strict {kind target} := by
    have hslice : (d.strict.slice kind).default? kind = d.strict.default? kind := by
      rw [StrictStore.default?_slice, if_pos rfl]
    rw [← hslice]
    refine (h.default_iff (some kind)).trans ((RawTree.exists_strict_kind_iff
      (P := fun kind' entries => kind' = kind ∧ entries.HasDefault target)).trans ?_)
    exact exists_congr fun entries => and_congr_right fun _ => and_iff_right rfl
  kind_loose := h.built.wellFormed_loose.hasKind_iff
  kind_strict := h.built.wellFormed_strict.hasKind_iff

/-- The lexicon that loading gives holds what the tree says. -/
theorem describes_of_load {tree : RawTree} {locale : String} {d : Lexicon}
    (h : load locale tree = .ok d) : tree.Describes locale d := (reflects_of_load h).describes

/-- A loadable tree is loaded as the lexicon that holds what it says. -/
theorem load_of_describes {tree : RawTree} {locale : String} {d : Lexicon} (h : tree.Loadable)
    (hd : tree.Describes locale d) : load locale tree = .ok d := by
  obtain ⟨d', h'⟩ := exists_load_of_loadable h locale
  rwa [hd.unique (describes_of_load h')]

/-- Loading ends well for the loadable trees alone, and the lexicon it gives is the one that the
tree describes. -/
theorem load_eq_ok_iff (locale : String) (tree : RawTree) :
    ((∃ d, load locale tree = .ok d) ↔ tree.Loadable) ∧
      ∀ d, load locale tree = .ok d ↔ tree.Loadable ∧ tree.Describes locale d :=
  ⟨⟨fun ⟨_, h⟩ => loadable_of_load h, fun h => exists_load_of_loadable h locale⟩,
    fun _ => ⟨fun h => ⟨loadable_of_load h, describes_of_load h⟩,
      fun ⟨h, hd⟩ => load_of_describes h hd⟩⟩

/-- A lexicon that is loaded from a tree, or built by registrations. -/
inductive Reachable : Lexicon → Prop
  | built {d : Lexicon} (h : d.Built) : Reachable d
  | loaded {locale : String} {tree : RawTree} {d : Lexicon} (h : load locale tree = .ok d) :
      Reachable d

theorem Reachable.toBuilt {d : Lexicon} (h : d.Reachable) : d.Built := by
  cases h with
  | built h => exact h
  | loaded h => exact built_of_load h

end Lexicon

end Inflection
