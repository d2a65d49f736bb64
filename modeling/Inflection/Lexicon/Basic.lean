import Inflection.Json.Value
import Inflection.Store.Strict

/-!
# Raw trees, lexicons and summaries

A raw tree is a configuration before it is checked: for each kind its entries, for each entry a
text or nothing.  A strict kind has the mark before its name, an alias before its value.

A lexicon is all inflection data of one locale: its loose and its strict kinds.  `Lexicon.summary`
counts the true tokens and the aliases of each kind, loose kinds first.
-/

namespace Inflection

/-! ## Raw trees -/

/-- The entries of a configured kind. -/
abbrev RawKind := SortedMap (Option String)

/-- The configured kinds of a locale. -/
abbrev RawTree := SortedMap RawKind

/-- The kind of a list of entries, where the last of equal names wins. -/
def RawKind.ofEntries (entries : List (String × String)) : RawKind :=
  SortedMap.ofList (entries.map fun e => (e.1, some e.2))

/-- The kind as a JSON object. -/
def RawKind.toJson (k : RawKind) : Json :=
  .object (k.toList.map fun e => (e.1, .ofString? e.2))

/-- The tree as a JSON object of objects. -/
def RawTree.toJson (t : RawTree) : Json :=
  .object (t.toList.map fun e => (e.1, RawKind.toJson e.2))

/-! ## Lexicons -/

/-- The loose and the strict kinds of a locale. -/
structure Lexicon where
  locale : String
  loose : LooseStore
  strict : StrictStore
deriving DecidableEq

namespace Lexicon

/-- The lexicon without tokens. -/
def empty (locale : String) : Lexicon := ⟨locale, .empty locale, .empty locale⟩

/-- The names of all kinds, loose ones first; those of strict kinds have the mark before them. -/
def kindNames (d : Lexicon) : List String :=
  d.loose.kindNames ++ d.strict.kindNames.map putMark

/-- The number of tokens and aliases. -/
def tokenCount (d : Lexicon) : Nat := d.loose.size + d.strict.size

/-- Whether both stores are empty. -/
def isEmpty (d : Lexicon) : Bool := d.loose.isEmpty && d.strict.isEmpty

/-- Registers a true token of a kind of the given sort. -/
def addToken (d : Lexicon) (strict : Bool) (name kind description : String) :
    Except LoadError Lexicon :=
  if strict then (d.strict.addToken name kind description).map fun s => { d with strict := s }
  else (d.loose.addToken name kind description).map fun s => { d with loose := s }

/-- Registers an alias in a kind of the given sort. -/
def addAlias (d : Lexicon) (strict : Bool) (name target kind : String) :
    Except LoadError Lexicon :=
  if strict then (d.strict.addAlias name target kind).map fun s => { d with strict := s }
  else (d.loose.addAlias name target (some kind)).map fun s => { d with loose := s }

/-- Sets the default of a kind of the given sort. -/
def setDefault (d : Lexicon) (strict : Bool) (kind name : String) : Except LoadError Lexicon :=
  if strict then (d.strict.setDefault kind name).map fun s => { d with strict := s }
  else (d.loose.setDefault kind name).map fun s => { d with loose := s }

end Lexicon

/-! ## Summaries -/

/-- What a summary says of one kind. -/
structure KindSummary where
  kind : String
  strict : Bool
  tokens : Nat
  aliases : Nat
  default? : Option String
deriving DecidableEq, Repr

/-- The summary of a loose kind. -/
def LooseStore.summaryOf (s : LooseStore) (kind : String) : KindSummary where
  kind
  strict := false
  tokens := (s.trueTokensOf (some kind)).length
  aliases := (s.aliasesOf (some kind)).length
  default? := s.default? kind

/-- The summary of a strict kind. -/
def StrictStore.summaryOf (s : StrictStore) (kind : String) : KindSummary where
  kind
  strict := true
  tokens := (s.trueTokensOf (some kind)).length
  aliases := (s.aliasesOf (some kind)).length
  default? := s.default? kind

/-- The summaries of all kinds, loose ones first, each part in name order. -/
def Lexicon.summary (d : Lexicon) : List KindSummary :=
  d.loose.kindNames.map d.loose.summaryOf ++ d.strict.kindNames.map d.strict.summaryOf

end Inflection
