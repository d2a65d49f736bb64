import Inflection.Proofs.Lexicon.Pointer
import Inflection.SortedMap.Lemmas

/-!
# Loadable trees and described lexicons

`RawTree.Loadable` says of a tree, without running the passes, that it can be loaded;
`RawTree.Describes` says of a lexicon that it holds what the tree says and nothing else.

## Main statements

* `RawTree.Describes.unique`: a tree describes one lexicon.
-/

namespace Inflection

/-! ## What a tree says -/

namespace RawKind

/-- The token that an entry of a kind stands for: a true token, or an alias of the token at the end
of the walk from its value. -/
inductive Gives (entries : RawKind) (kind name : String) : Token → Prop
  | plain {description : String} (hn : name ≠ defaultName)
      (hget : entries.get? name = some (some description)) (hv : isMarked description = false) :
      Gives entries kind name ⟨name, kind, description, none⟩
  | pointer {n : Nat} {pointer target description : String} (hn : name ≠ defaultName)
      (hget : entries.get? name = some (some pointer)) (hv : isMarked pointer) (hle : n ≤ 64)
      (hleads : entries.Leads n pointer target)
      (htarget : entries.get? target = some (some description)) :
      Gives entries kind name ⟨name, kind, description, some target⟩

/-- The default of a kind: the end of the walk from the value of its default entry. -/
def HasDefault (entries : RawKind) (target : String) : Prop :=
  ∃ pointer, entries.get? defaultName = some (some pointer) ∧
    ∃ n ≤ 64, entries.Leads n pointer target

end RawKind

namespace RawTree

/-- A tree that can be loaded. -/
structure Loadable (tree : RawTree) : Prop where
  kind : ∀ {key entries}, tree.get? key = some entries →
    isName (stripMark key) ∧ isReservedKey (stripMark key) = false
  entry : ∀ {key entries name value?}, tree.get? key = some entries →
    entries.get? name = some value? → name ≠ defaultName →
      isName name ∧ ∃ value, value? = some value
  loose : ∀ {key key' entries entries' name}, tree.get? key = some entries →
    tree.get? key' = some entries' → isMarked key = false → isMarked key' = false →
      entries.contains name → entries'.contains name → name ≠ defaultName → key = key'
  pointer : ∀ {key entries name pointer}, tree.get? key = some entries →
    entries.get? name = some (some pointer) → name ≠ defaultName → isMarked pointer →
      ∃ n ≤ 64, ∃ target, entries.Leads n pointer target
  default : ∀ {key entries value?}, tree.get? key = some entries →
    entries.get? defaultName = some value? →
      ∃ pointer, value? = some pointer ∧ ∃ n ≤ 64, ∃ target, entries.Leads n pointer target

/-- A lexicon holds the tokens and the defaults that a tree gives, and no others. -/
structure Describes (tree : RawTree) (locale : String) (d : Lexicon) : Prop where
  locale_eq : d.locale = locale ∧ d.loose.locale = locale ∧ d.strict.locale = locale
  loose : ∀ {name t}, d.loose.tokens.get? name = some t ↔
    ∃ kind entries, tree.get? kind = some entries ∧ isMarked kind = false ∧
      entries.Gives kind name t
  strict : ∀ {name kind t}, d.strict.token? name kind = some t ↔
    ∃ entries, tree.get? (putMark kind) = some entries ∧ entries.Gives kind name t
  default_loose : ∀ {kind target}, d.loose.default? kind = some target ↔
    ∃ entries, tree.get? kind = some entries ∧ isMarked kind = false ∧ entries.HasDefault target
  default_strict : ∀ {kind target}, d.strict.default? kind = some target ↔
    ∃ entries, tree.get? (putMark kind) = some entries ∧ entries.HasDefault target
  kind_loose : ∀ {kind}, d.loose.hasKind kind ↔
    ∃ name t, d.loose.tokens.get? name = some t ∧ t.kind = kind
  kind_strict : ∀ {kind}, d.strict.hasKind kind ↔ ∃ name t, d.strict.token? name kind = some t

end RawTree

/-! ## A lexicon is determined by its look-ups -/

theorem LooseStore.kinds_get?_eq (s : LooseStore) (kind : String) :
    s.kinds.get? kind = if s.hasKind kind then some (s.default? kind) else none := by
  rw [hasKind, SortedMap.contains_eq_isSome, default?]
  cases s.kinds.get? kind with
  | none => rfl
  | some default? => rfl

theorem LooseStore.ext_get? {s s' : LooseStore} (hl : s.locale = s'.locale)
    (ht : ∀ name, s.tokens.get? name = s'.tokens.get? name)
    (hk : ∀ kind, s.hasKind kind = s'.hasKind kind)
    (hd : ∀ kind, s.default? kind = s'.default? kind) : s = s' := by
  have htokens : s.tokens = s'.tokens := SortedMap.ext_get? ht
  have hkinds : s.kinds = s'.kinds :=
    SortedMap.ext_get? fun kind => by rw [kinds_get?_eq, kinds_get?_eq, hk, hd]
  cases s
  cases s'
  cases hl
  cases htokens
  cases hkinds
  rfl

theorem StrictStore.ext_get? {s s' : StrictStore} (hl : s.locale = s'.locale)
    (ht : ∀ name kind, s.token? name kind = s'.token? name kind)
    (hk : ∀ kind, s.hasKind kind = s'.hasKind kind)
    (hd : ∀ kind, s.default? kind = s'.default? kind) : s = s' := by
  have hkinds : s.kinds = s'.kinds := by
    refine SortedMap.ext_get? ?_
    intro kind
    have hk := hk kind
    have hd := hd kind
    have ht := fun name => ht name kind
    simp only [token?, default?, hasKind, SortedMap.contains_eq_isSome] at ht hk hd
    cases h : s.kinds.get? kind with
    | none =>
      cases h' : s'.kinds.get? kind with
      | none => rfl
      | some entry' => simp [h, h'] at hk
    | some entry =>
      cases h' : s'.kinds.get? kind with
      | none => simp [h, h'] at hk
      | some entry' =>
        obtain ⟨tokens, default?⟩ := entry
        obtain ⟨tokens', default?'⟩ := entry'
        simp only [h, h', Option.bind_some] at ht hd
        rw [SortedMap.ext_get? ht, hd]
  cases s
  cases s'
  cases hl
  cases hkinds
  rfl

/-- A tree describes one lexicon. -/
theorem RawTree.Describes.unique {tree : RawTree} {locale : String} {d d' : Lexicon}
    (h : tree.Describes locale d) (h' : tree.Describes locale d') : d = d' := by
  obtain ⟨hl, hloose, hstrict⟩ := h.locale_eq
  obtain ⟨hl', hloose', hstrict'⟩ := h'.locale_eq
  have ht (name) : d.loose.tokens.get? name = d'.loose.tokens.get? name :=
    Option.ext fun t => h.loose.trans h'.loose.symm
  have ht' (name kind) : d.strict.token? name kind = d'.strict.token? name kind :=
    Option.ext fun t => h.strict.trans h'.strict.symm
  have hsame : d.loose = d'.loose := by
    refine LooseStore.ext_get? (hloose.trans hloose'.symm) ht (fun kind => ?_) fun kind => ?_
    · rw [Bool.eq_iff_iff, h.kind_loose, h'.kind_loose]
      simp only [ht]
    · exact Option.ext fun t => h.default_loose.trans h'.default_loose.symm
  have hsame' : d.strict = d'.strict := by
    refine StrictStore.ext_get? (hstrict.trans hstrict'.symm) ht' (fun kind => ?_) fun kind => ?_
    · rw [Bool.eq_iff_iff, h.kind_strict, h'.kind_strict]
      simp only [ht']
    · exact Option.ext fun t => h.default_strict.trans h'.default_strict.symm
  cases d
  cases d'
  cases hl
  cases hl'
  cases hsame
  cases hsame'
  rfl

end Inflection
