import Inflection.Decimal.Shortest
import Inflection.Text.Quoted

/-!
# Failures of reading JSON

A failure is a cause and a place.  The place is kept as the number of bytes after it, which is
known where the failure arises; `Place.find` turns it into a line and a column.
-/

namespace Inflection.Json

/-! ## Causes -/

/-- What stands where a value of another sort is expected. -/
inductive Found where
  | null
  | bool (b : Bool)
  | integer (i : Int)
  | decimal (d : Decimal)
  | string (s : String)
  | array
  | object
deriving DecidableEq, Repr

/-- How a message names what was found. -/
def Found.message : Found → String
  | null => "null"
  | bool true => "boolean `true`"
  | bool false => "boolean `false`"
  | integer i => "integer `" ++ toString i ++ "`"
  | decimal d => "floating point `" ++ d.text ++ "`"
  | string s => "string " ++ Text.quoted s
  | array => "sequence"
  | object => "map"

/-- The sort of value that is expected. -/
inductive Expected where
  | object
  | string
deriving DecidableEq, Repr

/-- How a message names what was expected. -/
def Expected.message : Expected → String
  | object => "a map"
  | string => "a string"

/-- Why reading stops. -/
inductive Cause where
  | endInValue
  | endInObject
  | endInString
  | expectedColon
  | expectedCommaOrBrace
  | expectedWord
  | expectedValue
  | invalidEscape
  | invalidNumber
  | numberOutOfRange
  | unpairedSurrogate
  | unendedSurrogate
  | controlCharacter
  | keyNotString
  | trailingComma
  | trailingCharacters
  | invalidType (found : Found) (expected : Expected)
deriving DecidableEq, Repr

/-- The text of the cause. -/
def Cause.message : Cause → String
  | endInValue => "EOF while parsing a value"
  | endInObject => "EOF while parsing an object"
  | endInString => "EOF while parsing a string"
  | expectedColon => "expected `:`"
  | expectedCommaOrBrace => r"expected `,` or `}`"
  | expectedWord => "expected ident"
  | expectedValue => "expected value"
  | invalidEscape => "invalid escape"
  | invalidNumber => "invalid number"
  | numberOutOfRange => "number out of range"
  | unpairedSurrogate => "lone leading surrogate in hex escape"
  | unendedSurrogate => "unexpected end of hex escape"
  | controlCharacter => "control character (\\u0000-\\u001F) found while parsing a string"
  | keyNotString => "key must be a string"
  | trailingComma => "trailing comma"
  | trailingCharacters => "trailing characters"
  | invalidType found expected =>
    "invalid type: " ++ found.message ++ ", expected " ++ expected.message

/-! ## Places -/

/-- A line, counted from 1, and the number of bytes of it that are passed. -/
structure Place where
  line : Nat
  column : Nat
deriving DecidableEq, Repr

namespace Place

/-- The place some bytes further on. -/
def advance : List Char → Nat → Place → Place
  | [], _, p => p
  | c :: cs, bytes, p =>
    if bytes < c.utf8Size then { p with column := p.column + bytes }
    else if c = '\n' then advance cs (bytes - c.utf8Size) ⟨p.line + 1, 0⟩
    else advance cs (bytes - c.utf8Size) { p with column := p.column + c.utf8Size }

/-- The place in a text that has a number of bytes after it. -/
def find (text : List Char) (left : Nat) : Place :=
  advance text (Text.byteLength text - left) ⟨1, 0⟩

end Place

/-! ## Failures -/

/-- A cause, and the number of bytes after the place of the failure. -/
structure Failure where
  cause : Cause
  left : Nat
deriving DecidableEq, Repr

namespace Failure

/-- The failure right before the rest of a text. -/
def before (cause : Cause) (rest : List Char) : Failure := ⟨cause, Text.byteLength rest⟩

/-- The failure one byte into the rest of a text, if any is left. -/
def into (cause : Cause) (rest : List Char) : Failure := ⟨cause, Text.byteLength rest - 1⟩

/-- The place of the failure in the whole text. -/
def place (f : Failure) (text : List Char) : Place := .find text f.left

/-- The text of the failure. -/
def message (f : Failure) (text : List Char) : String :=
  f.cause.message ++ " at line " ++ toString (f.place text).line ++ " column " ++
    toString (f.place text).column

end Failure

end Inflection.Json
