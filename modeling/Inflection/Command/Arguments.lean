import Inflection.Command.Usage

/-!
# Commands

`Invocation.parse` is what a list of arguments asks for, or nothing if they are not used rightly:
an option that is unknown, repeated or without its value, a value that is not understood, or a
required argument that is missing.
-/

namespace Inflection.Command

/-- When output is coloured. -/
inductive ColorWhen where
  | auto
  | always
  | never
deriving DecidableEq, Repr

/-- Reads when output is coloured. -/
def ColorWhen.read : String → Option ColorWhen
  | "auto" => some auto
  | "always" => some always
  | "never" => some never
  | _ => none

/-- What to check. -/
structure CheckArguments where
  files : List String
  locale? : Option String
  text? : Option String
  json : Bool
deriving DecidableEq, Repr

/-- What to render. -/
structure EvalArguments where
  config : String
  locale? : Option String
  text : String
  options : List (String × String)
  json : Bool
deriving DecidableEq, Repr

/-- What to do. -/
inductive Task where
  | check (a : CheckArguments)
  | eval (a : EvalArguments)
deriving DecidableEq, Repr

/-- What the arguments ask for. -/
inductive Invocation where
  | version
  | perform (color : ColorWhen) (task : Task)
deriving DecidableEq, Repr

/-! ## Arguments of a level -/

/-- The options that are given, with those that are given twice twice. -/
def flagsOf (arguments : List Argument) : List Flag :=
  arguments.filterMap fun
    | .flag f => some f
    | .value f _ => some f
    | .positional _ => none

/-- The values of an option in order. -/
def valuesOf (f : Flag) (arguments : List Argument) : List String :=
  arguments.filterMap fun
    | .value g v => if g = f then some v else none
    | _ => none

/-- The positional arguments in order. -/
def positionals (arguments : List Argument) : List String :=
  arguments.filterMap fun
    | .positional s => some s
    | _ => none

/-- Splits an option pair at its first equals sign. -/
def readPair (s : String) : Option (String × String) :=
  (Text.splitFirst '=' s.toList).map fun p => (String.ofList p.1, String.ofList p.2)

/-- Whether the value of an option is understood. -/
def isValidValue : Flag → String → Bool
  | .color, v => (ColorWhen.read v).isSome
  | .config, v => v != ""
  | .option, v => (readPair v).isSome
  | _, _ => true

/-- Whether the arguments of a level are used rightly, whatever may be missing. -/
def wellUsed (arguments : List Argument) : Bool :=
  ((flagsOf arguments).filter (!·.repeatable)).Nodup &&
    arguments.all fun
      | .flag _ => true
      | .value f v => isValidValue f v
      | .positional s => s != ""

/-! ## Commands -/

/-- When output is coloured by the arguments of a level, if they say so. -/
def colorOf (arguments : List Argument) : Option ColorWhen :=
  (valuesOf .color arguments).head?.bind ColorWhen.read

/-- What to check by the arguments of the command. -/
def checkArguments (arguments : List Argument) : Option CheckArguments :=
  match positionals arguments with
  | [] => none
  | files => some
    { files
      locale? := (valuesOf .locale arguments).head?
      text? := (valuesOf .text arguments).head?
      json := .json ∈ flagsOf arguments }

/-- What to render by the arguments of the command. -/
def evalArguments (arguments : List Argument) : Option EvalArguments := do
  let config ← (valuesOf .config arguments).head?
  let text ← (valuesOf .text arguments).head?
  return {
    config
    locale? := (valuesOf .locale arguments).head?
    text
    options := (valuesOf .option arguments).filterMap readPair
    json := .json ∈ flagsOf arguments }

/-- What a command asks for by the arguments after its name. -/
def parseTask (name : String) (rest : List String) : Option (List Argument × Task) :=
  match name with
  | "check" => do
    let r ← read .check rest
    if wellUsed r.arguments then
      return (r.arguments, .check (← checkArguments r.arguments))
    else none
  | "eval" => do
    let r ← read .eval rest
    if wellUsed r.arguments then
      return (r.arguments, .eval (← evalArguments r.arguments))
    else none
  | _ => none

/-- What the arguments ask for, or nothing if they are not used rightly.  An option of both levels
counts as it is given after the command. -/
def Invocation.parse (args : List String) : Option Invocation := do
  let r ← read .top args
  if wellUsed r.arguments then
    match r.stop with
    | .finished => none
    | .version => return .version
    | .command name rest =>
      let (arguments, task) ← parseTask name rest
      let color := ((colorOf arguments).or (colorOf r.arguments)).getD .auto
      return .perform color task
  else none

end Inflection.Command
