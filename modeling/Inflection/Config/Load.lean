import Inflection.Json.Reader
import Inflection.Lexicon.Load

/-!
# Loading a configuration

`Config.load` reads a configuration as JSON and builds the lexicon of a locale from it.  The locale
is given, or else it is told by the path of the configuration.

A diagnostic says why a configuration is refused, and marks the bytes of it that the message is
about.  For a text that is no raw tree these are a single byte at the place where reading stopped;
for a tree that is refused, the first mention in quotes of the name that the error blames.
-/

namespace Inflection.Config

/-! ## Paths -/

/-- The parts of a path: what stands between its slashes, without empty parts and single dots. -/
def components (path : String) : List (List Char) :=
  (path.toList.splitOn '/').filter fun part => part ≠ [] ∧ part ≠ ['.']

/-- A file name without its last extension.  A dot that begins a name begins no extension. -/
def stem (name : List Char) : List Char :=
  match (name.splitOn '.').reverse with
  | _ :: before :: rest =>
    let base := ['.'].intercalate (before :: rest).reverse
    if base = [] then name else base
  | _ => name

/-- The name of the file that a path ends in, without its last extension. -/
def fileStem (path : String) : Option String :=
  match (components path).getLast? with
  | none => none
  | some name => if name = ['.', '.'] then none else some (String.ofList (stem name))

/-- The locale of a configuration file: the one that is given, or else the stem of its path. -/
def localeFor (path : String) (given? : Option String) : String :=
  given?.getD ((fileStem path).getD "")

/-! ## Diagnostics -/

/-- Some consecutive bytes of a text. -/
structure Span where
  offset : Nat
  length : Nat
deriving DecidableEq, Repr

/-- Why a configuration is refused. -/
structure Diagnostic where
  message : String
  help : String
  span? : Option Span
deriving DecidableEq, Repr

namespace Diagnostic

/-- The sort of every diagnostic about a configuration. -/
def code : String := "inflex::config"

/-- What stands beside the bytes that a diagnostic marks. -/
def label : String := "here"

/-! ### Texts that are no raw tree -/

/-- A line without its end: a newline, with the carriage return before it if there is one. -/
def trimLine (line : List Char) : List Char :=
  if line.getLast? = some '\r' then line.dropLast else line

/-- The bytes of a number of lines, each counted without its end and with one byte for it. -/
def linesLength (lines : Nat) (content : List Char) : Nat :=
  ((content.splitOn '\n').take lines).foldr
    (fun line n => Text.byteLength (trimLine line) + 1 + n) 0

/-- The offset of a place in a text, within the text. -/
def offsetOf (content : List Char) (p : Json.Place) : Nat :=
  min (linesLength (p.line - 1) content + (p.column - 1)) (Text.byteLength content)

/-- The diagnostic of a text that is no raw tree. -/
def ofFailure (content : List Char) (f : Json.Failure) : Diagnostic where
  message := "invalid configuration: " ++ f.message content
  help := "expected an object of kinds, each an object of token: description"
  span? := some ⟨offsetOf content (f.place content), 1⟩

/-! ### Trees that are refused -/

/-- The name that a load error blames. -/
def blamed : LoadError → String
  | .badKind _ kind => kind
  | .badToken _ _ token _ => token
  | .badAlias _ _ token _ _ => token
  | .duplicatedToken _ token _ _ => token

/-- What to do about a load error. -/
def advice : LoadError → String
  | .badKind .. =>
    r"kind names must be non-empty, free of whitespace and of + | : ! @ { } , \ ~, " ++
      "and must not be a reserved option key"
  | .badToken .. => "token names follow the kind name rules and `default` is reserved"
  | .badAlias .. => "pointers start with '@' and must lead to a token of the same kind"
  | .duplicatedToken .. =>
    "loose kinds share one namespace; rename the token or make the kind strict with an '@' prefix"

/-- The number of bytes before the first occurrence of a text. -/
def find? (needle : List Char) : List Char → Option Nat
  | [] => if needle = [] then some 0 else none
  | c :: cs =>
    if needle.isPrefixOf (c :: cs) then some 0 else (find? needle cs).map (c.utf8Size + ·)

/-- The first mention of a name in quotes. -/
def findQuoted (content : List Char) (name : String) : Option Span :=
  let needle := '"' :: (name.toList ++ ['"'])
  (find? needle content).map fun offset => ⟨offset, Text.byteLength needle⟩

/-- The diagnostic of a tree that is refused. -/
def ofLoadError (content : List Char) (e : LoadError) : Diagnostic where
  message := e.message
  help := advice e
  span? := findQuoted content (blamed e)

end Diagnostic

/-! ## Loading -/

/-- The lexicon of a configuration, or the diagnostic of why it is refused. -/
def load (content locale : String) : Except Diagnostic Lexicon :=
  let text := content.toList
  match Json.readTree text with
  | .error f => .error (.ofFailure text f)
  | .ok tree => (Lexicon.load locale tree).mapError (.ofLoadError text)

end Inflection.Config
