import Inflection.Lexicon.Basic
import Inflection.Options.Switch

/-!
# Loading a raw tree

`Lexicon.load` checks a raw tree and builds the lexicon of a locale from it.  The names of all
kinds are checked first; then three passes over the kinds add the true tokens, the aliases and the
defaults.  The first error ends the load.

A value with the mark before it is a pointer.  `RawKind.follow` walks from pointer to pointer
inside one kind, for at most `maxLookups` look-ups.
-/

namespace Inflection

/-- The look-ups after which a walk along pointers is given up. -/
def maxLookups : Nat := 64

/-- The end of the walk along pointers, for at most a number of look-ups. -/
def RawKind.follow (entries : RawKind) : Nat → String → Except PointerFlaw String
  | 0, _ => .error .tooLongOrCyclic
  | lookups + 1, pointer =>
    let name := stripMark pointer
    if !isName name || name == defaultName then .error .invalidPointer
    else match entries.get? name with
      | some (some value) => if isMarked value then follow entries lookups value else .ok name
      | _ => .error .leadsNowhere

/-- A configured kind whose name has been checked. -/
structure KindEntry where
  name : String
  strict : Bool
  entries : RawKind
deriving DecidableEq

namespace KindEntry

/-- Checks the name of a configured kind. -/
def check (locale : String) (kind : String × RawKind) : Except LoadError KindEntry :=
  let name := stripMark kind.1
  if !isName name || isReservedKey name then .error (.badKind locale kind.1)
  else .ok ⟨name, isMarked kind.1, kind.2⟩

/-- The true token that a pointer of an entry leads to. -/
def resolve (locale : String) (k : KindEntry) (token pointer : String) :
    Except LoadError String :=
  match k.entries.follow maxLookups pointer with
  | .ok target => .ok target
  | .error flaw => .error (.badAlias locale k.name token pointer flaw)

end KindEntry

namespace Lexicon

/-- Adds an entry that is a true token. -/
def loadToken (k : KindEntry) (d : Lexicon) (entry : String × Option String) :
    Except LoadError Lexicon :=
  if entry.1 == defaultName then .ok d
  else match entry.2 with
    | none => .error (.badToken d.locale k.name entry.1 .missingDescription)
    | some value => if isMarked value then .ok d else d.addToken k.strict entry.1 k.name value

/-- Adds an entry that is an alias. -/
def loadAlias (k : KindEntry) (d : Lexicon) (entry : String × Option String) :
    Except LoadError Lexicon :=
  match entry.2 with
  | none => .ok d
  | some value =>
    if isMarked value && entry.1 != defaultName then do
      let target ← k.resolve d.locale entry.1 value
      d.addAlias k.strict entry.1 target k.name
    else .ok d

/-- Adds the true tokens of a kind. -/
def loadTokens (d : Lexicon) (k : KindEntry) : Except LoadError Lexicon :=
  k.entries.toList.foldlM (loadToken k) d

/-- Adds the aliases of a kind. -/
def loadAliases (d : Lexicon) (k : KindEntry) : Except LoadError Lexicon :=
  k.entries.toList.foldlM (loadAlias k) d

/-- Sets the default of a kind that has one. -/
def loadDefault (d : Lexicon) (k : KindEntry) : Except LoadError Lexicon :=
  match k.entries.get? defaultName with
  | none => .ok d
  | some none => .error (.badAlias d.locale k.name defaultName "" .missingDefault)
  | some (some pointer) => do
    let target ← k.resolve d.locale defaultName pointer
    d.setDefault k.strict k.name target

/-- The lexicon of a raw tree, or the first error. -/
def load (locale : String) (tree : RawTree) : Except LoadError Lexicon := do
  let kinds ← tree.toList.mapM (KindEntry.check locale)
  let d ← kinds.foldlM loadTokens (empty locale)
  let d ← kinds.foldlM loadAliases d
  kinds.foldlM loadDefault d

end Lexicon

end Inflection
