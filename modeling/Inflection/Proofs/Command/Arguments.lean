import Inflection.Command.Arguments
import Mathlib.Data.List.Forall2
import Mathlib.Data.List.Nodup

/-!
# Command lines

Arguments that are written one to an option, each value behind an equals sign, are read as they
were meant.  On a line that is used rightly no option comes twice but the option pairs, so what the
command asks for says all that is given.

## Main statements

* `read_written`: arguments are read back from what is written of them.
* `parse_line`, `CheckArguments.parse_line`: whatever may be asked of a command, some line asks for
  it.
* `exists_given_of_parse`: a line that is accepted gives what the command that renders a text is
  asked for, and the option pairs are split at their first equals signs.
* `exists_lists_of_parse`: a line that is accepted gives the files to check.
-/

namespace Inflection.Command

/-! ## Options -/

theorem Flag.long_injective : Function.Injective Flag.long := by
  intro f g h
  cases f <;> cases g <;> first | rfl | exact absurd h (by decide)

theorem Flag.not_mem_long (f : Flag) : '=' ∉ f.long.toList := by
  cases f <;> decide

theorem Flag.exists_long_eq_cons (f : Flag) : ∃ c cs, f.long.toList = c :: cs := by
  cases f <;> exact ⟨_, _, rfl⟩

theorem Level.find?_long {flags : List Flag} {f : Flag} (h : f ∈ flags) :
    flags.find? (·.long == f.long) = some f := by
  cases hfind : flags.find? (·.long == f.long) with
  | none => exact absurd (List.find?_eq_none.1 hfind f h) (by simp)
  | some g =>
    have hlong := List.find?_some hfind
    rw [Flag.long_injective (beq_iff_eq.1 hlong)]

/-! ## Writing -/

/-- An argument as it may be written on a command line. -/
def Argument.written : Argument → String
  | .flag f => "--" ++ f.long
  | .value f v => "--" ++ f.long ++ "=" ++ v
  | .positional s => s

/-- An argument that a level understands without the arguments after it. -/
def Argument.IsPlain (l : Level) : Argument → Prop
  | .flag f => f ∈ l.flags ∧ f ≠ .version ∧ f.takesValue = false
  | .value f _ => f ∈ l.flags ∧ f.takesValue = true
  | .positional s => l.positional = true ∧ s ∉ l.commands ∧ looksLikeFlag s = false

theorem readLong_flag {l : Level} {f : Flag} (h : f ∈ l.flags) :
    readLong l f.long.toList = some (f, none) := by
  rw [readLong, Text.splitFirst_eq_none_iff.2 f.not_mem_long]
  simp [Level.find?_long h]

theorem readLong_value {l : Level} {f : Flag} (h : f ∈ l.flags) (hf : f.takesValue = true)
    (v : String) : readLong l (f.long.toList ++ '=' :: v.toList) = some (f, some v) := by
  rw [readLong, Text.splitFirst_append f.not_mem_long]
  simp [Level.find?_long h, hf]

/-- What stands behind two dashes is read as an option. -/
theorem read_long {l : Level} {arg : String} {c : Char} {cs : List Char}
    (harg : arg.toList = '-' :: '-' :: c :: cs) (args : List String) {f : Flag}
    {value? : Option String} (h : readLong l (c :: cs) = some (f, value?)) (hf : f ≠ .version)
    (hvalue : value?.isSome = f.takesValue) :
    read l (arg :: args) = (read l args).map (.prepend
      [match value? with | some v => .value f v | none => .flag f]) := by
  rw [read]
  simp only [harg, h]
  cases value? with
  | some v => cases f <;> first | rfl | exact absurd rfl hf
  | none => cases f <;> first | rfl | exact absurd rfl hf | exact absurd hvalue (by decide)

/-- An argument that stands for itself is read before the others. -/
theorem read_cons_written {l : Level} {x : Argument} (h : x.IsPlain l) (args : List String) :
    read l (x.written :: args) = (read l args).map (.prepend [x]) := by
  cases x with
  | flag f =>
    obtain ⟨hmem, hversion, hf⟩ := h
    obtain ⟨c, cs, hlong⟩ := f.exists_long_eq_cons
    have hread := readLong_flag hmem
    rw [hlong] at hread
    refine read_long ?_ args hread hversion hf.symm
    rw [Argument.written, String.toList_append, hlong]
    rfl
  | value f v =>
    obtain ⟨hmem, hf⟩ := h
    obtain ⟨c, cs, hlong⟩ := f.exists_long_eq_cons
    have hread := readLong_value hmem hf v
    rw [hlong] at hread
    refine read_long ?_ args hread ?_ hf.symm
    · simp only [Argument.written, String.toList_append, hlong, List.append_assoc]
      rfl
    · rintro rfl
      cases hf
  | positional s =>
    obtain ⟨hl, hs, hdash⟩ := h
    rw [Argument.written, read]
    unfold looksLikeFlag at hdash
    split
    · simp_all
    · simp_all
    · simp_all
    · rw [if_neg hs, if_pos hl]

/-- Arguments are read back from what is written of them, before whatever follows. -/
theorem read_written_append {l : Level} {arguments : List Argument}
    (h : ∀ x ∈ arguments, x.IsPlain l) (args : List String) :
    read l (arguments.map Argument.written ++ args) = (read l args).map (.prepend arguments) := by
  induction arguments with
  | nil => exact Option.map_id'.symm
  | cons x xs ih =>
    obtain ⟨hx, hxs⟩ := List.forall_mem_cons.1 h
    rw [List.map_cons, List.cons_append, read_cons_written hx, ih hxs, Option.map_map]
    rfl

/-- Arguments are read back from what is written of them. -/
theorem read_written {l : Level} {arguments : List Argument} (h : ∀ x ∈ arguments, x.IsPlain l) :
    read l (arguments.map Argument.written) = some ⟨arguments, .finished⟩ := by
  have hread := read_written_append h []
  rwa [List.append_nil, read, Option.map_some, Reading.prepend, List.append_nil] at hread

/-! ## Values -/

theorem valuesOf_cons_value (f g : Flag) (v : String) (xs : List Argument) :
    valuesOf f (.value g v :: xs) = if g = f then v :: valuesOf f xs else valuesOf f xs := by
  unfold valuesOf
  by_cases hg : g = f <;> simp [hg]

theorem valuesOf_append (f : Flag) (xs ys : List Argument) :
    valuesOf f (xs ++ ys) = valuesOf f xs ++ valuesOf f ys :=
  List.filterMap_append

theorem valuesOf_map_value (f g : Flag) (values : List String) :
    valuesOf f (values.map (.value g)) = if g = f then values else [] := by
  induction values with
  | nil => exact (ite_self _).symm
  | cons value values ih =>
    rw [List.map_cons, valuesOf_cons_value, ih]
    split <;> rfl

theorem valuesOf_map_positional (f : Flag) (items : List String) :
    valuesOf f (items.map .positional) = [] := by
  induction items with
  | nil => rfl
  | cons item items ih => exact ih

/-- A flag has no value, whether it is given or not. -/
theorem valuesOf_flag (f g : Flag) (given : Bool) :
    valuesOf f (if given then [.flag g] else []) = [] := by
  cases given <;> rfl

/-! ## Invocations -/

/-- A line asks for what the arguments after the name of a command ask for. -/
theorem parse_eq_perform_iff {args : List String} {color : ColorWhen} {task : Task} :
    Invocation.parse args = some (.perform color task) ↔
      ∃ before name rest arguments, read .top args = some ⟨before, .command name rest⟩ ∧
        wellUsed before = true ∧ parseTask name rest = some (arguments, task) ∧
        ((colorOf arguments).or (colorOf before)).getD .auto = color := by
  unfold Invocation.parse
  constructor
  · intro h
    obtain ⟨⟨before, stop⟩, htop, h⟩ := Option.bind_eq_some_iff.1 h
    split at h
    case isFalse => cases h
    case isTrue hused =>
      cases stop with
      | finished => cases h
      | version => cases h
      | command name rest =>
        obtain ⟨⟨arguments, task⟩, htask, h⟩ := Option.bind_eq_some_iff.1 h
        cases h
        exact ⟨before, name, rest, arguments, htop, hused, htask, rfl⟩
  · rintro ⟨before, name, rest, arguments, htop, hused, htask, rfl⟩
    simp only [htop, hused, htask, if_true, bind, Option.bind, pure]

/-- A command asks for something if its arguments are used rightly and none is missing. -/
theorem parseTask_eq_some_iff {name : String} {rest : List String} {arguments : List Argument}
    {task : Task} : parseTask name rest = some (arguments, task) ↔
      (name = "check" ∧ ∃ stop a, read .check rest = some ⟨arguments, stop⟩ ∧
        wellUsed arguments = true ∧ checkArguments arguments = some a ∧ task = .check a) ∨
      (name = "eval" ∧ ∃ stop a, read .eval rest = some ⟨arguments, stop⟩ ∧
        wellUsed arguments = true ∧ evalArguments arguments = some a ∧ task = .eval a) := by
  constructor
  · intro h
    unfold parseTask at h
    split at h
    case h_1 =>
      obtain ⟨⟨_, stop⟩, hread, h⟩ := Option.bind_eq_some_iff.1 h
      split at h
      case isTrue hused =>
        obtain ⟨a, ha, h⟩ := Option.bind_eq_some_iff.1 h
        cases h
        exact .inl ⟨rfl, stop, a, hread, hused, ha, rfl⟩
      case isFalse => cases h
    case h_2 =>
      obtain ⟨⟨_, stop⟩, hread, h⟩ := Option.bind_eq_some_iff.1 h
      split at h
      case isTrue hused =>
        obtain ⟨a, ha, h⟩ := Option.bind_eq_some_iff.1 h
        cases h
        exact .inr ⟨rfl, stop, a, hread, hused, ha, rfl⟩
      case isFalse => cases h
    case h_3 => cases h
  · rintro (⟨rfl, stop, a, hread, hused, ha, rfl⟩ | ⟨rfl, stop, a, hread, hused, ha, rfl⟩)
    all_goals simp only [parseTask, hread, hused, ha, if_true, bind, Option.bind, pure]

/-! ## Lines that render a text -/

/-- A pair is what stands before and after the first equals sign of an option value. -/
def SplitsInto (value : String) (pair : String × String) : Prop :=
  value = pair.1 ++ "=" ++ pair.2 ∧ '=' ∉ pair.1.toList

theorem readPair_eq_some_iff {s : String} {pair : String × String} :
    readPair s = some pair ↔ SplitsInto s pair := by
  obtain ⟨key, value⟩ := pair
  rw [readPair, Option.map_eq_some_iff]
  refine ⟨?_, ?_⟩
  · rintro ⟨⟨before, after⟩, hsplit, hpair⟩
    obtain ⟨rfl, rfl⟩ := Prod.mk.inj hpair
    obtain ⟨hs, hmem⟩ := Text.splitFirst_eq_some_iff.1 hsplit
    refine ⟨String.toList_inj.1 ?_, String.toList_ofList ▸ hmem⟩
    simp only [hs, String.toList_append, String.toList_ofList, List.append_assoc]
    rfl
  · rintro ⟨rfl, hmem⟩
    refine ⟨(key.toList, value.toList), Text.splitFirst_eq_some_iff.2 ⟨?_, hmem⟩, by simp⟩
    simp only [String.toList_append, List.append_assoc]
    rfl

/-- What the arguments of a line give to the command that renders a text. -/
structure Given (arguments : List Argument) (a : EvalArguments) : Prop where
  config : valuesOf .config arguments = [a.config]
  text : valuesOf .text arguments = [a.text]
  locale? : valuesOf .locale arguments = a.locale?.toList
  options : List.Forall₂ SplitsInto (valuesOf .option arguments) a.options
  json : .json ∈ flagsOf arguments ↔ a.json = true

/-- The arguments that ask for a rendering. -/
def EvalArguments.arguments (a : EvalArguments) : List Argument :=
  .value .config a.config :: .value .text a.text ::
    (a.locale?.toList.map (.value .locale) ++
      (a.options.map (fun pair => .value .option (pair.1 ++ "=" ++ pair.2)) ++
        if a.json then [.flag .json] else []))

/-- The arguments that ask for a rendering as a command line. -/
def EvalArguments.line (a : EvalArguments) : List String :=
  "eval" :: a.arguments.map Argument.written

theorem EvalArguments.forall_mem_arguments {a : EvalArguments} {P : Argument → Prop}
    (hconfig : P (.value .config a.config)) (htext : P (.value .text a.text))
    (hlocale : ∀ locale, P (.value .locale locale))
    (hoption : ∀ pair ∈ a.options, P (.value .option (pair.1 ++ "=" ++ pair.2)))
    (hjson : P (.flag .json)) : ∀ x ∈ a.arguments, P x := by
  rw [arguments, List.forall_mem_cons, List.forall_mem_cons, List.forall_mem_append,
    List.forall_mem_append, List.forall_mem_map, List.forall_mem_map]
  refine ⟨hconfig, htext, fun _ _ => hlocale _, hoption, ?_⟩
  split
  · exact List.forall_mem_singleton.2 hjson
  · exact fun _ h => absurd h List.not_mem_nil

theorem EvalArguments.valuesOf_arguments (a : EvalArguments) :
    valuesOf .config a.arguments = [a.config] ∧ valuesOf .text a.arguments = [a.text] ∧
      valuesOf .locale a.arguments = a.locale?.toList ∧
      valuesOf .option a.arguments = a.options.map (fun pair => pair.1 ++ "=" ++ pair.2) ∧
      valuesOf .color a.arguments = [] := by
  have hoptions : a.options.map (fun pair => Argument.value .option (pair.1 ++ "=" ++ pair.2)) =
      (a.options.map fun pair => pair.1 ++ "=" ++ pair.2).map (.value .option) :=
    List.map_map.symm
  rw [arguments, hoptions]
  simp only [valuesOf_cons_value, valuesOf_append, valuesOf_map_value, valuesOf_flag, reduceCtorEq,
    if_true, if_false, List.append_nil, List.nil_append, and_self]

theorem EvalArguments.flagsOf_arguments (a : EvalArguments) :
    (flagsOf a.arguments).filter (!·.repeatable) =
      Flag.config :: Flag.text :: (a.locale?.toList.map (fun _ => Flag.locale) ++
        if a.json then [Flag.json] else []) := by
  unfold arguments flagsOf
  cases a.json <;> cases a.locale? <;> simp [Flag.repeatable]

theorem mem_flagsOf_iff_of_not_repeatable {f : Flag} (hf : f.repeatable = false)
    {arguments : List Argument} :
    f ∈ flagsOf arguments ↔ f ∈ (flagsOf arguments).filter (!·.repeatable) := by
  rw [List.mem_filter, hf]
  exact (and_iff_left rfl).symm

theorem EvalArguments.evalArguments_arguments {a : EvalArguments}
    (hkeys : ∀ pair ∈ a.options, '=' ∉ pair.1.toList) :
    evalArguments a.arguments = some a := by
  obtain ⟨hconfig, htext, hlocale, hoption, -⟩ := a.valuesOf_arguments
  have hpairs : (a.options.map (fun pair => pair.1 ++ "=" ++ pair.2)).filterMap readPair =
      a.options := by
    rw [List.filterMap_map]
    refine (List.filterMap_congr (g := some) ?_).trans List.filterMap_some
    intro pair hpair
    exact readPair_eq_some_iff.2 ⟨rfl, hkeys pair hpair⟩
  have hjson : .json ∈ flagsOf a.arguments ↔ a.json = true := by
    rw [mem_flagsOf_iff_of_not_repeatable rfl, a.flagsOf_arguments]
    cases a.json <;> simp
  rw [evalArguments, hconfig, htext, hlocale, hoption, hpairs]
  simp [hjson]

theorem EvalArguments.wellUsed_arguments {a : EvalArguments} (hconfig : a.config ≠ "")
    (hkeys : ∀ pair ∈ a.options, '=' ∉ pair.1.toList) : wellUsed a.arguments = true := by
  rw [wellUsed, Bool.and_eq_true, decide_eq_true_eq, a.flagsOf_arguments, List.all_eq_true]
  refine ⟨?_, ?_⟩
  · cases a.json <;> cases a.locale? <;> simp
  · refine forall_mem_arguments (bne_iff_ne.2 hconfig) rfl (fun _ => rfl) ?_ rfl
    intro pair hpair
    exact Option.isSome_iff_exists.2 ⟨pair, readPair_eq_some_iff.2 ⟨rfl, hkeys pair hpair⟩⟩

/-- Whatever may be asked of the command that renders a text, some line asks for it. -/
theorem parse_line {a : EvalArguments} (hconfig : a.config ≠ "")
    (hkeys : ∀ pair ∈ a.options, '=' ∉ pair.1.toList) :
    Invocation.parse a.line = some (.perform .auto (.eval a)) := by
  have hplain : ∀ x ∈ a.arguments, x.IsPlain .eval := by
    refine EvalArguments.forall_mem_arguments ?_ ?_ (fun _ => ?_) (fun _ _ => ?_) ?_
    all_goals simp [Argument.IsPlain, Level.eval, Flag.takesValue]
  have htop : read .top a.line =
      some ⟨[], .command "eval" (a.arguments.map Argument.written)⟩ := by
    rw [EvalArguments.line, read]
    rfl
  have htask : parseTask "eval" (a.arguments.map Argument.written) =
      some (a.arguments, .eval a) :=
    parseTask_eq_some_iff.2 (.inr ⟨rfl, _, a, read_written hplain,
      EvalArguments.wellUsed_arguments hconfig hkeys, EvalArguments.evalArguments_arguments hkeys,
      rfl⟩)
  refine parse_eq_perform_iff.2 ⟨_, _, _, _, htop, rfl, htask, ?_⟩
  rw [colorOf, a.valuesOf_arguments.2.2.2.2]
  rfl

/-! ## Lines that are accepted -/

theorem length_valuesOf_le (f : Flag) (arguments : List Argument) :
    (valuesOf f arguments).length ≤ (flagsOf arguments).count f := by
  induction arguments with
  | nil => exact Nat.zero_le _
  | cons x xs ih =>
    cases x with
    | flag g => exact Nat.le_trans ih List.count_le_count_cons
    | positional s => exact ih
    | value g v =>
      change _ ≤ (g :: flagsOf xs).count f
      rw [valuesOf_cons_value]
      split
      case isTrue hg =>
        subst hg
        rw [List.count_cons_self]
        exact Nat.succ_le_succ ih
      case isFalse => exact Nat.le_trans ih List.count_le_count_cons

/-- An option that may not be repeated has one value at most. -/
theorem valuesOf_eq_toList {f : Flag} (hf : f.repeatable = false) {arguments : List Argument}
    (h : wellUsed arguments = true) :
    valuesOf f arguments = (valuesOf f arguments).head?.toList := by
  rw [wellUsed, Bool.and_eq_true, decide_eq_true_eq] at h
  have hcount := List.nodup_iff_count_le_one.1 h.1 f
  rw [List.count_filter (by rw [hf]; rfl)] at hcount
  have hlength := Nat.le_trans (length_valuesOf_le f arguments) hcount
  match valuesOf f arguments, hlength with
  | [], _ => rfl
  | [v], _ => rfl

/-- The pairs of option values that are understood are what stands before and after the first
equals signs. -/
theorem forall₂_filterMap_readPair {values : List String}
    (h : ∀ value ∈ values, (readPair value).isSome = true) :
    List.Forall₂ SplitsInto values (values.filterMap readPair) := by
  induction values with
  | nil => exact .nil
  | cons value values ih =>
    obtain ⟨hvalue, hvalues⟩ := List.forall_mem_cons.1 h
    obtain ⟨pair, hpair⟩ := Option.isSome_iff_exists.1 hvalue
    rw [List.filterMap_cons_some hpair]
    exact .cons (readPair_eq_some_iff.1 hpair) (ih hvalues)

theorem mem_valuesOf_iff {f : Flag} {v : String} {arguments : List Argument} :
    v ∈ valuesOf f arguments ↔ .value f v ∈ arguments := by
  rw [valuesOf, List.mem_filterMap]
  refine ⟨?_, fun h => ⟨_, h, if_pos rfl⟩⟩
  rintro ⟨_ | ⟨g, w⟩ | _, hmem, hvalue⟩
  · cases hvalue
  · dsimp only at hvalue
    split at hvalue
    · rename_i hg
      cases hvalue
      exact hg ▸ hmem
    · cases hvalue
  · cases hvalue

theorem given_of_evalArguments {arguments : List Argument} {a : EvalArguments}
    (hused : wellUsed arguments = true) (h : evalArguments arguments = some a) :
    Given arguments a := by
  unfold evalArguments at h
  obtain ⟨config, hconfig, h⟩ := Option.bind_eq_some_iff.1 h
  obtain ⟨text, htext, h⟩ := Option.bind_eq_some_iff.1 h
  obtain rfl := Option.some.inj h
  have hall := (Bool.and_eq_true_iff.1 hused).2
  rw [List.all_eq_true] at hall
  constructor
  case config => rw [valuesOf_eq_toList rfl hused, hconfig]; rfl
  case text => rw [valuesOf_eq_toList rfl hused, htext]; rfl
  case locale? => exact valuesOf_eq_toList rfl hused
  case options =>
    refine forall₂_filterMap_readPair ?_
    intro value hvalue
    exact hall _ (mem_valuesOf_iff.1 hvalue)
  case json => simp

/-- A line that is accepted gives what the command is asked for, each option once but the option
pairs. -/
theorem exists_given_of_parse {args : List String} {color : ColorWhen} {a : EvalArguments}
    (h : Invocation.parse args = some (.perform color (.eval a))) :
    ∃ before rest r, read .top args = some ⟨before, .command "eval" rest⟩ ∧
      read .eval rest = some r ∧ Given r.arguments a := by
  obtain ⟨before, name, rest, arguments, htop, -, htask, -⟩ := parse_eq_perform_iff.1 h
  rcases parseTask_eq_some_iff.1 htask with ⟨-, _, _, -, -, -, h⟩ | ⟨rfl, _, _, hr, hused, ha, h⟩
  · cases h
  · cases h
    exact ⟨before, rest, _, htop, hr, given_of_evalArguments hused ha⟩

/-! ## Lines that check configurations -/

/-- What the arguments of a line give to the command that checks configurations. -/
structure Lists (arguments : List Argument) (a : CheckArguments) : Prop where
  files : positionals arguments = a.files
  files_ne_nil : a.files ≠ []
  locale? : valuesOf .locale arguments = a.locale?.toList
  text? : valuesOf .text arguments = a.text?.toList
  json : .json ∈ flagsOf arguments ↔ a.json = true

theorem lists_of_checkArguments {arguments : List Argument} {a : CheckArguments}
    (hused : wellUsed arguments = true) (h : checkArguments arguments = some a) :
    Lists arguments a := by
  unfold checkArguments at h
  split at h
  case h_1 => cases h
  case h_2 files hne =>
    cases h
    constructor
    case files => rfl
    case files_ne_nil => exact hne
    case locale? => exact valuesOf_eq_toList rfl hused
    case text? => exact valuesOf_eq_toList rfl hused
    case json => simp

/-- A line that is accepted gives the files to check, each option at most once. -/
theorem exists_lists_of_parse {args : List String} {color : ColorWhen} {a : CheckArguments}
    (h : Invocation.parse args = some (.perform color (.check a))) :
    ∃ before rest r, read .top args = some ⟨before, .command "check" rest⟩ ∧
      read .check rest = some r ∧ Lists r.arguments a := by
  obtain ⟨before, name, rest, arguments, htop, -, htask, -⟩ := parse_eq_perform_iff.1 h
  rcases parseTask_eq_some_iff.1 htask with ⟨rfl, _, _, hr, hused, ha, h⟩ | ⟨-, _, _, -, -, -, h⟩
  · cases h
    exact ⟨before, rest, _, htop, hr, lists_of_checkArguments hused ha⟩
  · cases h

namespace CheckArguments

variable (a : CheckArguments)

/-- The options that ask for a check. -/
def options : List Argument :=
  a.locale?.toList.map (.value .locale) ++ (a.text?.toList.map (.value .text) ++
    if a.json then [.flag .json] else [])

/-- The arguments that ask for a check. -/
def arguments : List Argument := a.options ++ a.files.map .positional

/-- The arguments that ask for a check as a command line.  Two dashes stand before the files, so
that none of them is read as an option. -/
def line : List String := "check" :: (a.options.map Argument.written ++ "--" :: a.files)

theorem read_options : read .check (a.options.map Argument.written ++ "--" :: a.files) =
    some ⟨a.arguments, .finished⟩ := by
  have hplain : ∀ x ∈ a.options, x.IsPlain .check := by
    unfold options
    simp only [List.forall_mem_append, List.forall_mem_map]
    refine ⟨fun _ _ => ?_, fun _ _ => ?_, ?_⟩
    case refine_3 => cases a.json <;> simp [Argument.IsPlain, Level.check, Flag.takesValue]
    all_goals simp [Argument.IsPlain, Level.check, Flag.takesValue]
  rw [read_written_append hplain, read]
  rfl

theorem values_arguments : positionals a.arguments = a.files ∧
    valuesOf .locale a.arguments = a.locale?.toList ∧
    valuesOf .text a.arguments = a.text?.toList ∧ valuesOf .color a.arguments = [] := by
  have hfiles : positionals a.arguments = a.files := by
    unfold arguments options positionals
    cases a.json <;> simp
  refine ⟨hfiles, ?_⟩
  simp only [arguments, options, valuesOf_append, valuesOf_map_value, valuesOf_map_positional,
    valuesOf_flag, reduceCtorEq, if_true, if_false, List.append_nil, List.nil_append, and_self]

theorem flagsOf_arguments : flagsOf a.arguments =
    a.locale?.toList.map (fun _ => Flag.locale) ++ (a.text?.toList.map (fun _ => Flag.text) ++
      if a.json then [Flag.json] else []) := by
  unfold arguments options flagsOf
  cases a.json <;> simp

variable {a}

theorem wellUsed_arguments (hnames : ∀ file ∈ a.files, file ≠ "") :
    wellUsed a.arguments = true := by
  rw [wellUsed, Bool.and_eq_true, decide_eq_true_eq, a.flagsOf_arguments, List.all_eq_true]
  refine ⟨?_, ?_⟩
  · cases a.json <;> cases a.locale? <;> cases a.text? <;> simp [Flag.repeatable]
  · unfold arguments options
    simp only [List.forall_mem_append, List.forall_mem_map]
    refine ⟨⟨fun _ _ => rfl, fun _ _ => rfl, ?_⟩, ?_⟩
    · cases a.json <;> simp
    · exact fun file hfile => bne_iff_ne.2 (hnames file hfile)

theorem checkArguments_arguments (hfiles : a.files ≠ []) :
    checkArguments a.arguments = some a := by
  obtain ⟨hpositionals, hlocale, htext, -⟩ := a.values_arguments
  have hjson : .json ∈ flagsOf a.arguments ↔ a.json = true := by
    rw [a.flagsOf_arguments]
    cases a.json <;> simp
  rw [checkArguments, hpositionals, hlocale, htext]
  split
  case h_1 hnil => exact absurd hnil hfiles
  case h_2 => simp [hjson]

/-- Whatever files are to be checked, some line asks for it. -/
theorem parse_line (hfiles : a.files ≠ []) (hnames : ∀ file ∈ a.files, file ≠ "") :
    Invocation.parse a.line = some (.perform .auto (.check a)) := by
  have htop : read .top a.line =
      some ⟨[], .command "check" (a.options.map Argument.written ++ "--" :: a.files)⟩ := by
    rw [line, read]
    rfl
  have htask : parseTask "check" (a.options.map Argument.written ++ "--" :: a.files) =
      some (a.arguments, .check a) :=
    parseTask_eq_some_iff.2 (.inl ⟨rfl, _, a, a.read_options, wellUsed_arguments hnames,
      checkArguments_arguments hfiles, rfl⟩)
  refine parse_eq_perform_iff.2 ⟨_, _, _, _, htop, rfl, htask, ?_⟩
  rw [colorOf, a.values_arguments.2.2.2]
  rfl

end CheckArguments

end Inflection.Command
