import Inflection.Proofs.Lexicon.Pointer
import Inflection.SortedMap.Lemmas

/-!
# Faults of trees

What can be wrong with a tree, and the error that blames it, said without loading the tree.  A name
of a kind can be bad.  The true tokens, the aliases and the defaults have faults of their own, each
named by the error of an entry that is at fault.

`RawTree.Refuses` puts the faults in the order of the passes of loading: those of one sort are
blamed only when there are none of the sorts before.

## Main statements

* `RawTree.Refuses.attests`: what an error blames is in the tree, and at fault.
-/

namespace Inflection.RawTree

/-! ## Faults, by sort -/

/-- An entry of a kind of the tree, under the name of the kind in the configuration. -/
def HasEntry (tree : RawTree) (key name : String) (value? : Option String) : Prop :=
  ∃ entries, tree.get? key = some entries ∧ entries.get? name = some value?

/-- A kind of the tree whose name, without mark, is no name or is kept for a switch. -/
def BadKind (tree : RawTree) (key : String) : Prop :=
  tree.contains key ∧ ¬(isName (stripMark key) ∧ isReservedKey (stripMark key) = false)

/-- What is wrong with an entry that is no alias and no default: it has no description, its name
is no name, or another loose kind has a true token of this name. -/
inductive TokenFault (tree : RawTree) (locale : String) : LoadError → Prop
  | missing {key name : String} (h : tree.HasEntry key name none) (hn : name ≠ defaultName) :
      TokenFault tree locale (.badToken locale (stripMark key) name .missingDescription)
  | badName {key name value : String} (h : tree.HasEntry key name (some value))
      (hn : name ≠ defaultName) (hv : isMarked value = false) (hbad : isName name = false) :
      TokenFault tree locale (.badToken locale (stripMark key) name .badName)
  | duplicated {kind kind' name value value' : String} (h : tree.HasEntry kind name (some value))
      (h' : tree.HasEntry kind' name (some value')) (hn : name ≠ defaultName)
      (hv : isMarked value = false) (hv' : isMarked value' = false)
      (hloose : isMarked kind = false) (hloose' : isMarked kind' = false) (hne : kind ≠ kind') :
      TokenFault tree locale (.duplicatedToken locale name kind kind')

/-- What is wrong with an alias: its pointer leads to no true token, its name is no name, or
another loose kind has an entry of this name. -/
inductive AliasFault (tree : RawTree) (locale : String) : LoadError → Prop
  | strays {key name pointer : String} {entries : RawKind} {flaw : PointerFlaw}
      (hkind : tree.get? key = some entries) (h : entries.get? name = some (some pointer))
      (hn : name ≠ defaultName) (hv : isMarked pointer)
      (hstrays : entries.Strays 64 pointer flaw) :
      AliasFault tree locale (.badAlias locale (stripMark key) name pointer flaw)
  | badName {key name pointer : String} (h : tree.HasEntry key name (some pointer))
      (hn : name ≠ defaultName) (hv : isMarked pointer) (hbad : isName name = false) :
      AliasFault tree locale (.badToken locale (stripMark key) name .badName)
  | duplicated {kind kind' name pointer : String} {value? : Option String}
      (h : tree.HasEntry kind name (some pointer)) (h' : tree.HasEntry kind' name value?)
      (hn : name ≠ defaultName) (hv : isMarked pointer) (hloose : isMarked kind = false)
      (hloose' : isMarked kind' = false) (hne : kind ≠ kind') :
      AliasFault tree locale (.duplicatedToken locale name kind kind')

/-- What is wrong with a default: it has no value, or its value leads to no true token. -/
inductive DefaultFault (tree : RawTree) (locale : String) : LoadError → Prop
  | missing {key : String} (h : tree.HasEntry key defaultName none) :
      DefaultFault tree locale
        (.badAlias locale (stripMark key) defaultName "" .missingDefault)
  | strays {key pointer : String} {entries : RawKind} {flaw : PointerFlaw}
      (hkind : tree.get? key = some entries)
      (h : entries.get? defaultName = some (some pointer))
      (hstrays : entries.Strays 64 pointer flaw) :
      DefaultFault tree locale (.badAlias locale (stripMark key) defaultName pointer flaw)

/-! ## The order of the sorts -/

/-- The errors that a tree may be refused with.  A sort of faults is blamed only when there are
none of the sorts before. -/
inductive Refuses (tree : RawTree) (locale : String) : LoadError → Prop
  | kind {key : String} (h : tree.BadKind key) : Refuses tree locale (.badKind locale key)
  | token {e : LoadError} (hkind : ∀ key, ¬tree.BadKind key) (h : tree.TokenFault locale e) :
      Refuses tree locale e
  | pointer {e : LoadError} (hkind : ∀ key, ¬tree.BadKind key)
      (htoken : ∀ e', ¬tree.TokenFault locale e') (h : tree.AliasFault locale e) :
      Refuses tree locale e
  | default {e : LoadError} (hkind : ∀ key, ¬tree.BadKind key)
      (htoken : ∀ e', ¬tree.TokenFault locale e') (halias : ∀ e', ¬tree.AliasFault locale e')
      (h : tree.DefaultFault locale e) : Refuses tree locale e

/-! ## What an error says -/

/-- What an error of loading says about a tree is so: the kind and the entry that it names are in
the tree; a bad token has no value or no name; an alias or default has the target as its value, or
is a default without value; and a duplicated token stands in two different loose kinds. -/
def Attests (tree : RawTree) (locale : String) : LoadError → Prop
  | .badKind l key => l = locale ∧ tree.BadKind key
  | .badToken l kind token _ => l = locale ∧ ∃ key value?, stripMark key = kind ∧
      tree.HasEntry key token value? ∧ (value? = none ∨ isName token = false)
  | .badAlias l kind token target _ => l = locale ∧ ∃ key value?, stripMark key = kind ∧
      tree.HasEntry key token value? ∧
        (value? = some target ∨ value? = none ∧ token = defaultName ∧ target = "")
  | .duplicatedToken l token kind firstKind => l = locale ∧ kind ≠ firstKind ∧
      isMarked kind = false ∧ isMarked firstKind = false ∧
        (∃ value?, tree.HasEntry kind token value?) ∧
          ∃ value?, tree.HasEntry firstKind token value?

variable {tree : RawTree} {locale : String} {e : LoadError}

theorem TokenFault.attests (h : tree.TokenFault locale e) : tree.Attests locale e := by
  cases h with
  | missing h hn => exact ⟨rfl, _, _, rfl, h, .inl rfl⟩
  | badName h hn hv hbad => exact ⟨rfl, _, _, rfl, h, .inr hbad⟩
  | duplicated h h' hn hv hv' hloose hloose' hne =>
    exact ⟨rfl, hne, hloose, hloose', ⟨_, h⟩, _, h'⟩

theorem AliasFault.attests (h : tree.AliasFault locale e) : tree.Attests locale e := by
  cases h with
  | strays hkind h hn hv hstrays => exact ⟨rfl, _, _, rfl, ⟨_, hkind, h⟩, .inl rfl⟩
  | badName h hn hv hbad => exact ⟨rfl, _, _, rfl, h, .inr hbad⟩
  | duplicated h h' hn hv hloose hloose' hne =>
    exact ⟨rfl, hne, hloose, hloose', ⟨_, h⟩, _, h'⟩

theorem DefaultFault.attests (h : tree.DefaultFault locale e) : tree.Attests locale e := by
  cases h with
  | missing h => exact ⟨rfl, _, _, rfl, h, .inr ⟨rfl, rfl, rfl⟩⟩
  | strays hkind h hstrays => exact ⟨rfl, _, _, rfl, ⟨_, hkind, h⟩, .inl rfl⟩

/-- What an error blames is in the tree, and at fault. -/
theorem Refuses.attests (h : tree.Refuses locale e) : tree.Attests locale e := by
  cases h with
  | kind h => exact ⟨rfl, h⟩
  | token _ h => exact h.attests
  | pointer _ _ h => exact h.attests
  | default _ _ _ h => exact h.attests

/-! ## Telling the sorts apart -/

/-- Only a bad name of a kind is blamed as one. -/
theorem Refuses.exists_badKind_iff (h : tree.Refuses locale e) :
    (∃ key, tree.BadKind key) ↔ ∃ key, e = .badKind locale key := by
  cases h with
  | @kind key h => exact ⟨fun _ => ⟨key, rfl⟩, fun _ => ⟨key, h⟩⟩
  | token hkind h =>
    refine ⟨fun ⟨key, hbad⟩ => absurd hbad (hkind key), ?_⟩
    rintro ⟨key, rfl⟩
    cases h
  | pointer hkind _ h =>
    refine ⟨fun ⟨key, hbad⟩ => absurd hbad (hkind key), ?_⟩
    rintro ⟨key, rfl⟩
    cases h
  | default hkind _ _ h =>
    refine ⟨fun ⟨key, hbad⟩ => absurd hbad (hkind key), ?_⟩
    rintro ⟨key, rfl⟩
    cases h

theorem Refuses.tokenFault (h : tree.Refuses locale e) (hkind : ∀ key, ¬tree.BadKind key)
    (htoken : ∃ e', tree.TokenFault locale e') : tree.TokenFault locale e := by
  obtain ⟨e', he'⟩ := htoken
  cases h with
  | kind h => exact absurd h (hkind _)
  | token _ h => exact h
  | pointer _ hnone => exact absurd he' (hnone e')
  | default _ hnone => exact absurd he' (hnone e')

theorem Refuses.aliasFault (h : tree.Refuses locale e) (hkind : ∀ key, ¬tree.BadKind key)
    (htoken : ∀ e', ¬tree.TokenFault locale e') (halias : ∃ e', tree.AliasFault locale e') :
    tree.AliasFault locale e := by
  obtain ⟨e', he'⟩ := halias
  cases h with
  | kind h => exact absurd h (hkind _)
  | token _ h => exact absurd h (htoken e)
  | pointer _ _ h => exact h
  | default _ _ hnone => exact absurd he' (hnone e')

theorem Refuses.defaultFault (h : tree.Refuses locale e) (hkind : ∀ key, ¬tree.BadKind key)
    (htoken : ∀ e', ¬tree.TokenFault locale e') (halias : ∀ e', ¬tree.AliasFault locale e') :
    tree.DefaultFault locale e := by
  cases h with
  | kind h => exact absurd h (hkind _)
  | token _ h => exact absurd h (htoken e)
  | pointer _ _ h => exact absurd h (halias e)
  | default _ _ _ h => exact h

/-- A default is blamed only for a tree without other faults. -/
theorem Refuses.exists_default_iff (h : tree.Refuses locale e) :
    (∃ kind target flaw, e = .badAlias locale kind defaultName target flaw) ↔
      (∀ key, ¬tree.BadKind key) ∧ (∀ e', ¬tree.TokenFault locale e') ∧
        ∀ e', ¬tree.AliasFault locale e' := by
  refine ⟨?_, ?_⟩
  · rintro ⟨kind, target, flaw, rfl⟩
    cases h with
    | token _ h => cases h
    | pointer _ _ h =>
      cases h with
      | strays _ _ hn => exact absurd rfl hn
    | default hkind htoken halias => exact ⟨hkind, htoken, halias⟩
  · rintro ⟨hkind, htoken, halias⟩
    cases h.defaultFault hkind htoken halias with
    | missing => exact ⟨_, _, _, rfl⟩
    | strays => exact ⟨_, _, _, rfl⟩

end Inflection.RawTree
