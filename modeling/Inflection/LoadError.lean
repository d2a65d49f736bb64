/-!
# Load errors

Why a registration or a whole configuration is refused.  Each error names the locale and the
entry it is about; `LoadError.message` is its text.
-/

namespace Inflection

/-- What is wrong with an entry that should be a token. -/
inductive TokenFlaw where
  | badName
  | missingDescription
deriving DecidableEq, Repr

/-- The text of the flaw. -/
def TokenFlaw.message : TokenFlaw → String
  | badName => "name is empty, reserved or contains reserved characters"
  | missingDescription => "missing description"

/-- What is wrong with an alias or a default. -/
inductive PointerFlaw where
  | targetNotOfKind
  | defaultNotOfKind
  | missingDefault
  | invalidPointer
  | leadsNowhere
  | tooLongOrCyclic
deriving DecidableEq, Repr

/-- The text of the flaw. -/
def PointerFlaw.message : PointerFlaw → String
  | targetNotOfKind => "target is not a token of this kind"
  | defaultNotOfKind => "default is not a token of this kind"
  | missingDefault => "missing default"
  | invalidPointer => "invalid pointer"
  | leadsNowhere => "pointer leads nowhere"
  | tooLongOrCyclic => "alias chain is too long or cyclic"

/-- Why data is refused. -/
inductive LoadError where
  | badKind (locale kind : String)
  | badToken (locale kind token : String) (flaw : TokenFlaw)
  | badAlias (locale kind token target : String) (flaw : PointerFlaw)
  | duplicatedToken (locale token kind firstKind : String)
deriving DecidableEq, Repr

/-- The text of the error. -/
def LoadError.message : LoadError → String
  | badKind locale kind => s!"bad inflection kind '{kind}' in locale '{locale}'"
  | badToken locale kind token flaw =>
    s!"bad inflection token '{token}' of kind '{kind}' in locale '{locale}': {flaw.message}"
  | badAlias locale kind token target flaw =>
    s!"bad alias '{token}' -> '{target}' of kind '{kind}' in locale '{locale}': {flaw.message}"
  | duplicatedToken locale token kind firstKind =>
    s!"duplicated inflection token '{token}' in locale '{locale}': " ++
      s!"kind '{kind}' redefines it from kind '{firstKind}'"

end Inflection
