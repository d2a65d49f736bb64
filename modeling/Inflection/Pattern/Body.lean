import Inflection.Pattern.Basic
import Inflection.Text.Split

/-!
# Bodies of patterns

A body is parts separated by `|`.  A part with a colon gives a value to the tokens before its
first colon; the last part is the free text if it has no colon, and any other part without one is
a bare clause.  The tokens are groups joined by `+`, each of members separated by commas.
-/

namespace Inflection

/-- Reads a member, negated by a leading `!`. -/
def Member.ofChars : List Char → Member
  | '!' :: cs => ⟨String.ofList cs, true⟩
  | cs => ⟨String.ofList cs, false⟩

/-- Reads the members of a group. -/
def Group.ofChars (cs : List Char) : Group := ⟨(cs.splitOn ',').map Member.ofChars⟩

/-- Reads a value: `~` alone stands for the description of the token, and one leading backslash
is taken off any other text. -/
def Value.ofChars : List Char → Value
  | ['~'] => .loud
  | '\\' :: cs => .text (String.ofList cs)
  | cs => .text (String.ofList cs)

namespace Clause

/-- The clause of the tokens before a colon and the value after it. -/
def ofTokens (tokens value : List Char) : Clause :=
  .choice ((tokens.splitOn '+').map Group.ofChars) (Value.ofChars value)

/-- Reads a part that is not the free text. -/
def ofChars (part : List Char) : Clause :=
  match Text.splitFirst ':' part with
  | some (tokens, value) => ofTokens tokens value
  | none => .bare (String.ofList part)

end Clause

namespace Pattern

/-- Reads the parts of a body into its clauses and its free text. -/
def readParts : List (List Char) → List Clause × Option String
  | [] => ([], none)
  | [part] =>
    match Text.splitFirst ':' part with
    | some (tokens, value) => ([.ofTokens tokens value], none)
    | none => ([], some (String.ofList part))
  | part :: parts =>
    let (clauses, freeText?) := readParts parts
    (.ofChars part :: clauses, freeText?)

/-- The pattern with a given text of kinds and a given body. -/
def ofBody (kinds body : List Char) : Pattern :=
  let (clauses, freeText?) := readParts (body.splitOn '|')
  { source := String.ofList (mark :: (kinds ++ '{' :: (body ++ ['}'])))
    target := .ofKinds (String.ofList kinds)
    clauses
    freeText? }

end Pattern

end Inflection
