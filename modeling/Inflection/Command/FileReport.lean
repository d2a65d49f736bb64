import Inflection.Command.Arguments
import Inflection.Config.Load
import Inflection.Lint.Check
import Inflection.Text.Table

/-!
# Reports on configurations

A report says what the check of one configuration finds: why it is refused, or the summary of its
kinds and the warnings about a text.  It is written as lines or as a JSON object.
-/

namespace Inflection.Command

/-- What the check of a file finds. -/
structure FileReport where
  file : String
  locale : String
  error? : Option String
  kinds : List KindSummary
  warnings : List String
deriving DecidableEq, Repr

namespace FileReport

/-- Checks a configuration, and a text against it if one is given. -/
def check (a : CheckArguments) (file content : String) : FileReport :=
  let locale := Config.localeFor file a.locale?
  match Config.load content locale with
  | .error e => ⟨file, locale, some e.message, [], []⟩
  | .ok d =>
    let warnings := match a.text? with
      | none => []
      | some text => (lint text d).map Warning.message
    ⟨file, locale, none, d.summary, warnings⟩

/-- Whether there is anything wrong. -/
def isBad (r : FileReport) : Bool := r.error?.isSome || !r.warnings.isEmpty

/-! ## Lines -/

/-- A word in a colour given by its number, if output is coloured. -/
def paint (colored : Bool) (color word : String) : String :=
  if colored then "\x1b[" ++ color ++ "m" ++ word ++ "\x1b[39m" else word

/-- The row of a kind. -/
def kindRow (k : KindSummary) : List String :=
  [k.kind, if k.strict then "yes" else "no", toString k.tokens, toString k.aliases,
    k.default?.getD "-"]

/-- The table of some kinds. -/
def kindTable (kinds : List KindSummary) : Text.Table :=
  ⟨["Kind", "Strict", "Tokens", "Aliases", "Default"], kinds.map kindRow⟩

/-- The report as lines, none for a configuration that is refused. -/
def text (colored : Bool) (r : FileReport) : String :=
  match r.error? with
  | some _ => ""
  | none =>
    let head := paint colored "32" "ok" ++ " " ++ r.file ++ " (locale '" ++ r.locale ++ "')\n"
    let table := if r.kinds.isEmpty then "" else (kindTable r.kinds).render ++ "\n"
    let warnings := r.warnings.map fun w => paint colored "33" "warning" ++ ": " ++ w ++ "\n"
    head ++ table ++ String.join warnings

/-! ## JSON -/

/-- The summary of a kind as a JSON object. -/
def kindJson (k : KindSummary) : Json :=
  .object [("kind", .string k.kind), ("strict", .bool k.strict), ("tokens", .nat k.tokens),
    ("aliases", .nat k.aliases), ("default", .ofString? k.default?)]

/-- The report as a JSON object, with an error only if there is one. -/
def toJson (r : FileReport) : Json :=
  let error := match r.error? with
    | some e => [("error", .string e)]
    | none => []
  .object ([("file", .string r.file), ("locale", .string r.locale)] ++ error ++
    [("kinds", .array (r.kinds.map kindJson)), ("warnings", .array (r.warnings.map .string))])

end FileReport

end Inflection.Command
