import Inflection.Command.FileReport
import Inflection.Registry

/-!
# Running a command

A command reads files and ends with an exit code and what it writes.  `run` is a function of the
arguments and of the files that can be read, so that the outer layer only reads and writes.
-/

namespace Inflection.Command

/-- The exit codes. -/
inductive ExitCode where
  /-- All is well. -/
  | ok
  /-- The arguments are not used rightly. -/
  | usage
  /-- The data is refused or warned of. -/
  | dataError
  /-- A file cannot be read, or an option pair is refused. -/
  | software
deriving DecidableEq, Repr

/-- The number of an exit code. -/
def ExitCode.toNat : ExitCode → Nat
  | ok => 0
  | usage => 2
  | dataError => 65
  | software => 70

/-- How a command ends. -/
structure Outcome where
  code : ExitCode
  stdout : String
  stderr : String
deriving DecidableEq, Repr

/-- The files that can be read, by their paths. -/
abbrev Files := String → Option String

/-- What is said of a file that cannot be read. -/
def unreadable (path : String) : String := "Cannot read configuration file " ++ path ++ "\n"

/-! ## Checking -/

/-- The reports of files up to the first that cannot be read, and that one. -/
def checkFiles (files : Files) (a : CheckArguments) :
    List String → List FileReport × Option String
  | [] => ([], none)
  | path :: paths =>
    match files path with
    | none => ([], some path)
    | some content =>
      let (reports, missing?) := checkFiles files a paths
      (FileReport.check a path content :: reports, missing?)

/-- Runs the command that checks configurations. -/
def runCheck (files : Files) (colored : Bool) (a : CheckArguments) : Outcome :=
  let (reports, missing?) := checkFiles files a a.files
  let lines := if a.json then "" else String.join (reports.map (FileReport.text colored))
  let errors := String.join (reports.filterMap fun r => r.error?.map (· ++ "\n"))
  let errors := if a.json then "" else errors
  match missing? with
  | some path => ⟨.software, lines, errors ++ unreadable path⟩
  | none =>
    let json := if a.json then (Json.array (reports.map FileReport.toJson)).pretty ++ "\n" else ""
    ⟨if reports.any FileReport.isBad then .dataError else .ok, lines ++ json, errors⟩

/-! ## Rendering -/

/-- The text and the locale of a rendering as a JSON object. -/
def resultJson (locale result : String) : Json :=
  .object [("locale", .string locale), ("result", .string result)]

/-- A fault as a JSON object. -/
def faultJson (e : Fault) : Json := .object [("error", .string e.message)]

/-- Runs the command that renders a text. -/
def runEval (files : Files) (a : EvalArguments) : Outcome :=
  let locale := Config.localeFor a.config a.locale?
  match files a.config with
  | none => ⟨.software, "", unreadable a.config⟩
  | some content =>
    match Config.load content locale with
    | .error e => ⟨.dataError, "", e.message ++ "\n"⟩
    | .ok d =>
      match Options.ofPairs a.options with
      | .error e => ⟨.software, "", "Invalid option: " ++ e.message ++ "\n"⟩
      | .ok o =>
        match ((Registry.empty .standard).install d).2.interpolate a.text locale o with
        | .ok result =>
          ⟨.ok, (if a.json then (resultJson locale result).pretty else result) ++ "\n", ""⟩
        | .error e =>
          ⟨.dataError, "",
            if a.json then (faultJson e).pretty ++ "\n"
            else "Interpolation error: " ++ e.message ++ "\n"⟩

/-! ## All commands -/

/-- The name and version of the program. -/
def versionLine : String := "inflex 0.1.0\n"

/-- What is said of arguments that are not used rightly. -/
def usageLine : String := "usage: inflex [OPTIONS] (check | eval) [ARGUMENTS]\n"

/-- The files that an invocation may read. -/
def Invocation.paths : Invocation → List String
  | .version => []
  | .perform _ (.check a) => a.files
  | .perform _ (.eval a) => [a.config]

/-- Runs an invocation. -/
def Invocation.run (files : Files) : Invocation → Outcome
  | .version => ⟨.ok, versionLine, ""⟩
  | .perform color (.check a) => runCheck files (color = .always) a
  | .perform _ (.eval a) => runEval files a

/-- Runs the program with some arguments. -/
def run (files : Files) (args : List String) : Outcome :=
  match Invocation.parse args with
  | none => ⟨.usage, "", usageLine⟩
  | some invocation => invocation.run files

end Inflection.Command
