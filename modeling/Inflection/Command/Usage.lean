import Inflection.Text.Split

/-!
# Usage of the command line

Arguments are read from left to right: options of the level, values of options, positional
arguments, until the name of a command or the request for the version.  `read` gives what was
read and where it stopped, or nothing if an argument is not understood.
-/

namespace Inflection.Command

/-! ## Options -/

/-- An option of the command line. -/
inductive Flag where
  | color
  | verbose
  | version
  | locale
  | text
  | json
  | config
  | option
deriving DecidableEq, Repr

namespace Flag

/-- The name of an option after two dashes. -/
def long : Flag → String
  | color => "color"
  | verbose => "verbose"
  | version => "version"
  | locale => "locale"
  | text => "text"
  | json => "json"
  | config => "config"
  | option => "option"

/-- The letter of an option after one dash. -/
def short? : Flag → Option Char
  | verbose => some 'v'
  | version => some 'V'
  | option => some 'o'
  | _ => none

/-- Whether an option has a value. -/
def takesValue : Flag → Bool
  | verbose | version | json => false
  | _ => true

/-- Whether an option may be given more than once. -/
def repeatable : Flag → Bool
  | option => true
  | _ => false

end Flag

/-- The options and commands that are understood at some level, and whether other arguments are. -/
structure Level where
  flags : List Flag
  commands : List String
  positional : Bool

/-- The level before a command. -/
def Level.top : Level := ⟨[.color, .verbose, .version], ["check", "eval"], false⟩

/-- The level of the command that checks configurations. -/
def Level.check : Level := ⟨[.color, .verbose, .locale, .text, .json], [], true⟩

/-- The level of the command that renders a text. -/
def Level.eval : Level := ⟨[.color, .verbose, .config, .locale, .text, .option, .json], [], false⟩

/-! ## Reading -/

/-- An argument that has been understood. -/
inductive Argument where
  | flag (f : Flag)
  | value (f : Flag) (v : String)
  | positional (s : String)
deriving DecidableEq, Repr

/-- Where reading stopped. -/
inductive Stop where
  | finished
  | version
  | command (name : String) (rest : List String)
deriving DecidableEq, Repr

/-- The arguments of a level, and where reading them stopped. -/
structure Reading where
  arguments : List Argument
  stop : Stop
deriving DecidableEq, Repr

/-- The reading with some arguments before the others. -/
def Reading.prepend (arguments : List Argument) (r : Reading) : Reading :=
  { r with arguments := arguments ++ r.arguments }

/-- What a group of letters asks for: nothing more, a value for its last option, or the version. -/
inductive Letters where
  | done (arguments : List Argument)
  | pending (arguments : List Argument) (f : Flag)
  | version (arguments : List Argument)
deriving DecidableEq, Repr

/-- The letters with an argument before the others. -/
def Letters.cons (a : Argument) : Letters → Letters
  | done arguments => done (a :: arguments)
  | pending arguments f => pending (a :: arguments) f
  | version arguments => version (a :: arguments)

/-- Reads letters after one dash.  What follows the letter of an option with a value is the value,
less an equals sign. -/
def readLetters (l : Level) : List Char → Option Letters
  | [] => some (.done [])
  | c :: cs =>
    match l.flags.find? (·.short? == some c) with
    | none => none
    | some .version => some (.version [])
    | some f =>
      if f.takesValue then
        match cs with
        | [] => some (.pending [] f)
        | '=' :: cs => some (.done [.value f (String.ofList cs)])
        | cs => some (.done [.value f (String.ofList cs)])
      else (readLetters l cs).map (.cons (.flag f))

/-- Reads the name of an option after two dashes, with a value after an equals sign. -/
def readLong (l : Level) (cs : List Char) : Option (Flag × Option String) :=
  let (name, value?) := match Text.splitFirst '=' cs with
    | some (name, value) => (name, some (String.ofList value))
    | none => (cs, none)
  match l.flags.find? (·.long == String.ofList name) with
  | none => none
  | some f => if value?.isSome && !f.takesValue then none else some (f, value?)

/-- Whether an argument is read as options. -/
def looksLikeFlag (s : String) : Bool :=
  match s.toList with
  | '-' :: _ :: _ => true
  | _ => false

/-- Reads the arguments of a level. -/
def read (l : Level) : List String → Option Reading
  | [] => some ⟨[], .finished⟩
  | arg :: args =>
    match arg.toList with
    | ['-', '-'] =>
      if l.positional || args = [] then some ⟨args.map .positional, .finished⟩ else none
    | '-' :: '-' :: cs =>
      match readLong l cs with
      | none => none
      | some (.version, _) => some ⟨[], .version⟩
      | some (f, some v) => (read l args).map (.prepend [.value f v])
      | some (f, none) =>
        if f.takesValue then
          match args with
          | v :: args => if looksLikeFlag v then none else (read l args).map (.prepend [.value f v])
          | [] => none
        else (read l args).map (.prepend [.flag f])
    | '-' :: c :: cs =>
      match readLetters l (c :: cs) with
      | none => none
      | some (.version arguments) => some ⟨arguments, .version⟩
      | some (.done arguments) => (read l args).map (.prepend arguments)
      | some (.pending arguments f) =>
        match args with
        | v :: args =>
          if looksLikeFlag v then none
          else (read l args).map (.prepend (arguments ++ [.value f v]))
        | [] => none
    | _ =>
      if arg ∈ l.commands then some ⟨[], .command arg args⟩
      else if l.positional then (read l args).map (.prepend [.positional arg])
      else none

end Inflection.Command
