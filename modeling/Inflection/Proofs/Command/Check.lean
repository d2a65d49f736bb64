import Inflection.Command.Run
import Inflection.Proofs.Command.Arguments
import Inflection.Proofs.Json.Values

/-!
# Checking on the command line

`Verdict` says what the check of some files comes to: one cannot be read, one is refused or warned
of, or neither.  It is about the files and not about the list that names them, so their order and
their number do not matter, and neither does how the outcome is written.  As a list of objects it
says of each file in turn what `Reports` does.

## Main statements

* `checkFiles_of_missing`, `checkFiles_of_readable`: the files are read up to the first that cannot
  be, or all of them are.
* `isBad_check_iff`: a report is bad if the configuration is refused or warned of.
* `run_check`: the program ends with the verdict, and writes one report to a file.
-/

namespace Inflection.Command

/-! ## Verdicts -/

/-- A configuration is refused, or a text is warned of. -/
inductive Faulty (text? : Option String) (locale content : String) : Prop
  | refused {e : Config.Diagnostic} (hload : Config.load content locale = .error e)
  | warned {d : Lexicon} {text : String} (hload : Config.load content locale = .ok d)
      (htext : text? = some text) (hlint : lint text d ≠ [])

/-- Some file can be read and is faulty. -/
def SomeFaulty (files : Files) (listed : List String) (locale? text? : Option String) : Prop :=
  ∃ file ∈ listed, ∃ content, files file = some content ∧
    Faulty text? (Config.localeFor file locale?) content

/-- What the check of the files that are listed comes to, as the number of an exit code. -/
inductive Verdict (files : Files) (listed : List String) (locale? text? : Option String) :
    Nat → Prop
  | unreadable (hmissing : ∃ file ∈ listed, files file = none) :
      Verdict files listed locale? text? 70
  | faulty (hread : ∀ file ∈ listed, files file ≠ none)
      (hfaulty : SomeFaulty files listed locale? text?) : Verdict files listed locale? text? 65
  | fine (hread : ∀ file ∈ listed, files file ≠ none)
      (hfine : ¬ SomeFaulty files listed locale? text?) : Verdict files listed locale? text? 0

/-- The report on a configuration that is checked under a locale, as a JSON object. -/
inductive Reports (text? : Option String) (file locale content : String) : Json → Prop
  | refused {e : Config.Diagnostic} (hload : Config.load content locale = .error e) :
      Reports text? file locale content (.object [("file", .string file),
        ("locale", .string locale), ("error", .string e.message), ("kinds", .array []),
        ("warnings", .array [])])
  | loaded {d : Lexicon} (hload : Config.load content locale = .ok d) :
      Reports text? file locale content (.object [("file", .string file),
        ("locale", .string locale), ("kinds", .array (d.summary.map fun k => .object
          [("kind", .string k.kind), ("strict", .bool k.strict), ("tokens", .nat k.tokens),
            ("aliases", .nat k.aliases), ("default", k.default?.elim .null .string)])),
        ("warnings", .array ((text?.elim [] (lint · d)).map fun w => .string w.message))])

section Verdicts

variable {files : Files} {listed listed' : List String} {locale? text? : Option String}

theorem Verdict.unique {code code' : Nat} (h : Verdict files listed locale? text? code)
    (h' : Verdict files listed locale? text? code') : code = code' := by
  have hnot (hmissing : ∃ file ∈ listed, files file = none)
      (hread : ∀ file ∈ listed, files file ≠ none) : False := by
    obtain ⟨file, hfile, hnone⟩ := hmissing
    exact hread file hfile hnone
  cases h with
  | unreadable hmissing =>
    cases h' with
    | unreadable => rfl
    | faulty hread | fine hread => exact absurd hread (hnot hmissing)
  | faulty hread hfaulty =>
    cases h' with
    | unreadable hmissing => exact absurd hread (hnot hmissing)
    | faulty => rfl
    | fine _ hfine => exact absurd hfaulty hfine
  | fine hread hfine =>
    cases h' with
    | unreadable hmissing => exact absurd hread (hnot hmissing)
    | faulty _ hfaulty => exact absurd hfaulty hfine
    | fine => rfl

/-- A verdict is about the files, in whatever order and however often they are listed. -/
theorem Verdict.of_mem_iff (hlisted : ∀ file, file ∈ listed' ↔ file ∈ listed) {code : Nat}
    (h : Verdict files listed locale? text? code) : Verdict files listed' locale? text? code := by
  have hfaulty :
      SomeFaulty files listed' locale? text? ↔ SomeFaulty files listed locale? text? := by
    simp only [SomeFaulty, hlisted]
  cases h with
  | unreadable hmissing =>
    obtain ⟨file, hfile, hnone⟩ := hmissing
    exact .unreadable ⟨file, (hlisted file).2 hfile, hnone⟩
  | faulty hread h =>
    exact .faulty (fun file hfile => hread file ((hlisted file).1 hfile)) (hfaulty.2 h)
  | fine hread h =>
    exact .fine (fun file hfile => hread file ((hlisted file).1 hfile)) (mt hfaulty.1 h)

end Verdicts

/-! ## Reports -/

variable {a : CheckArguments} {file content : String}

theorem check_of_refused {e : Config.Diagnostic}
    (hload : Config.load content (Config.localeFor file a.locale?) = .error e) :
    FileReport.check a file content =
      ⟨file, Config.localeFor file a.locale?, some e.message, [], []⟩ := by
  simp only [FileReport.check, hload]

theorem check_of_loaded {d : Lexicon}
    (hload : Config.load content (Config.localeFor file a.locale?) = .ok d) :
    FileReport.check a file content = ⟨file, Config.localeFor file a.locale?, none, d.summary,
      (a.text?.elim [] (lint · d)).map Warning.message⟩ := by
  simp only [FileReport.check, hload]
  cases a.text? <;> rfl

/-- A report is bad if the configuration is refused or warned of. -/
theorem isBad_check_iff : (FileReport.check a file content).isBad = true ↔
    Faulty a.text? (Config.localeFor file a.locale?) content := by
  cases hload : Config.load content (Config.localeFor file a.locale?) with
  | error e =>
    rw [check_of_refused hload]
    exact iff_of_true rfl (.refused hload)
  | ok d =>
    have hwarned : (a.text?.elim [] (lint · d)).map Warning.message ≠ [] ↔
        ∃ text, a.text? = some text ∧ lint text d ≠ [] := by
      cases a.text? <;> simp
    rw [check_of_loaded hload, FileReport.isBad, Option.isSome_none, Bool.false_or,
      Bool.not_eq_true', List.isEmpty_eq_false_iff, hwarned]
    constructor
    · rintro ⟨text, htext, hlint⟩
      exact .warned hload htext hlint
    · rintro (⟨hload'⟩ | ⟨hload', htext, hlint⟩)
      · cases hload.symm.trans hload'
      · cases hload.symm.trans hload'
        exact ⟨_, htext, hlint⟩

theorem kindJson_eq (k : KindSummary) : FileReport.kindJson k = .object
    [("kind", .string k.kind), ("strict", .bool k.strict), ("tokens", .nat k.tokens),
      ("aliases", .nat k.aliases), ("default", k.default?.elim .null .string)] := by
  rw [FileReport.kindJson]
  cases k.default? <;> rfl

theorem reports_check : Reports a.text? file (Config.localeFor file a.locale?) content
    (FileReport.check a file content).toJson := by
  cases hload : Config.load content (Config.localeFor file a.locale?) with
  | error e =>
    rw [check_of_refused hload]
    exact .refused hload
  | ok d =>
    rw [check_of_loaded hload, FileReport.toJson, List.map_map, funext kindJson_eq]
    exact .loaded hload

/-- A report is nested to four levels. -/
theorem fits_toJson (r : FileReport) (levels : Nat) : r.toJson.Fits (levels + 4) := by
  have hkind (k : KindSummary) : (FileReport.kindJson k).Fits (levels + 2) := by
    simp only [FileReport.kindJson, Json.Fits, List.forall_mem_cons]
    refine ⟨trivial, trivial, trivial, trivial, ?_, fun _ h => absurd h List.not_mem_nil⟩
    cases k.default? <;> trivial
  unfold FileReport.toJson
  cases r.error? <;> simp [Json.Fits, hkind]

/-! ## Files -/

variable {files : Files} {paths : List String}

/-- The report on a file that can be read. -/
def Checks (files : Files) (a : CheckArguments) (path : String) (report : FileReport) : Prop :=
  ∃ content, files path = some content ∧ report = FileReport.check a path content

/-- What is checked of some files is what is checked of each, if all can be read. -/
theorem checkFiles_of_readable (h : ∀ path ∈ paths, files path ≠ none) :
    ∃ reports, checkFiles files a paths = (reports, none) ∧
      List.Forall₂ (Checks files a) paths reports := by
  induction paths with
  | nil => exact ⟨[], rfl, .nil⟩
  | cons path paths ih =>
    obtain ⟨hpath, hpaths⟩ := List.forall_mem_cons.1 h
    obtain ⟨content, hcontent⟩ := Option.ne_none_iff_exists'.1 hpath
    obtain ⟨reports, hreports, hall⟩ := ih hpaths
    refine ⟨FileReport.check a path content :: reports, ?_, .cons ⟨content, hcontent, rfl⟩ hall⟩
    simp only [checkFiles, hcontent, hreports]

/-- Checking stops at a file that cannot be read. -/
theorem checkFiles_of_missing (h : ∃ path ∈ paths, files path = none) :
    ∃ reports path, checkFiles files a paths = (reports, some path) := by
  induction paths with
  | nil =>
    obtain ⟨path, hmem, -⟩ := h
    exact absurd hmem List.not_mem_nil
  | cons path paths ih =>
    cases hpath : files path with
    | none => exact ⟨[], path, by simp only [checkFiles, hpath]⟩
    | some content =>
      have hmissing : ∃ path ∈ paths, files path = none := by
        obtain ⟨missing, hmem, hnone⟩ := h
        rcases List.mem_cons.1 hmem with rfl | hmem
        · cases hpath.symm.trans hnone
        · exact ⟨missing, hmem, hnone⟩
      obtain ⟨reports, missing, hreports⟩ := ih hmissing
      refine ⟨FileReport.check a path content :: reports, missing, ?_⟩
      simp only [checkFiles, hpath, hreports]

theorem any_isBad_iff {reports : List FileReport}
    (h : List.Forall₂ (Checks files a) paths reports) :
    reports.any FileReport.isBad = true ↔ SomeFaulty files paths a.locale? a.text? := by
  induction h with
  | nil => simp [SomeFaulty]
  | @cons path report paths reports hreport _ ih =>
    obtain ⟨content, hcontent, rfl⟩ := hreport
    rw [List.any_cons, Bool.or_eq_true, isBad_check_iff, ih]
    simp [SomeFaulty, hcontent]

/-- The program ends with the verdict on the files. -/
theorem verdict_runCheck (files : Files) (colored : Bool) (a : CheckArguments) :
    Verdict files a.files a.locale? a.text? (runCheck files colored a).code.toNat := by
  by_cases hmissing : ∃ file ∈ a.files, files file = none
  case pos =>
    obtain ⟨reports, path, hreports⟩ := checkFiles_of_missing (a := a) hmissing
    simp only [runCheck, hreports]
    exact .unreadable hmissing
  case neg =>
    have hread : ∀ file ∈ a.files, files file ≠ none := fun file hfile hnone =>
      hmissing ⟨file, hfile, hnone⟩
    obtain ⟨reports, hreports, hall⟩ := checkFiles_of_readable (a := a) hread
    simp only [runCheck, hreports]
    split
    case isTrue h => exact .faulty hread ((any_isBad_iff hall).1 h)
    case isFalse h => exact .fine hread (mt (any_isBad_iff hall).2 h)

/-- The program writes one report to a file in a list of objects. -/
theorem read_runCheck (hjson : a.json = true) (hread : ∀ file ∈ a.files, files file ≠ none)
    (colored : Bool) :
    ∃ reports, Json.read (runCheck files colored a).stdout = some (.array reports) ∧
      List.Forall₂ (fun file report => ∃ content, files file = some content ∧
        Reports a.text? file (Config.localeFor file a.locale?) content report)
        a.files reports := by
  obtain ⟨reports, hreports, hall⟩ := checkFiles_of_readable (a := a) hread
  have hfits : (Json.array (reports.map FileReport.toJson)).Fits Json.maxDepth := by
    intro j hj
    obtain ⟨report, -, rfl⟩ := List.mem_map.1 hj
    exact fits_toJson report _
  refine ⟨reports.map FileReport.toJson, ?_, ?_⟩
  · simp only [runCheck, hreports, hjson, if_true]
    exact Json.read_pretty hfits
  · rw [List.forall₂_map_right_iff]
    refine hall.imp ?_
    rintro file _ ⟨content, hcontent, rfl⟩
    exact ⟨content, hcontent, reports_check⟩

/-- The program checks as the library does: its exit code is the verdict on the files, in whatever
order and however often they are listed and however the outcome is written; and as objects it writes
one report to a file.  What is checked is what a line lists, and some line asks for each check. -/
theorem run_check (files : Files) :
    (∀ listed locale? text?, ∃ code,
      (∀ code', Verdict files listed locale? text? code' ↔ code' = code) ∧
      ∀ args color listed' json, (∀ file, file ∈ listed' ↔ file ∈ listed) →
        Invocation.parse args = some (.perform color (.check ⟨listed', locale?, text?, json⟩)) →
          (run files args).code.toNat = code) ∧
    (∀ args color a, Invocation.parse args = some (.perform color (.check a)) → a.json = true →
      (∀ file ∈ a.files, files file ≠ none) →
        ∃ reports, Json.read (run files args).stdout = some (.array reports) ∧
          List.Forall₂ (fun file report => ∃ content, files file = some content ∧
            Reports a.text? file (Config.localeFor file a.locale?) content report)
            a.files reports) ∧
    (∀ args color a, Invocation.parse args = some (.perform color (.check a)) →
      ∃ before rest r, read .top args = some ⟨before, .command "check" rest⟩ ∧
        read .check rest = some r ∧ Lists r.arguments a) ∧
    ∀ a : CheckArguments, a.files ≠ [] → (∀ file ∈ a.files, file ≠ "") →
      Invocation.parse a.line = some (.perform .auto (.check a)) := by
  refine ⟨?_, ?_, fun _ _ _ => exists_lists_of_parse, fun _ => CheckArguments.parse_line⟩
  · intro listed locale? text?
    have hverdict (listed' : List String) (json colored : Bool) :
        Verdict files listed' locale? text?
          (runCheck files colored ⟨listed', locale?, text?, json⟩).code.toNat :=
      verdict_runCheck files colored ⟨listed', locale?, text?, json⟩
    refine ⟨(runCheck files false ⟨listed, locale?, text?, false⟩).code.toNat, ?_, ?_⟩
    · intro code'
      refine ⟨fun h => h.unique (hverdict listed false false), ?_⟩
      rintro rfl
      exact hverdict listed false false
    · intro args color listed' json hlisted hparse
      rw [run, hparse]
      have h := (hverdict listed' json (color = .always)).of_mem_iff fun file => (hlisted file).symm
      exact h.unique (hverdict listed false false)
  · intro args color a hparse hjson hread
    rw [run, hparse]
    exact read_runCheck hjson hread _

/-- A file that is refused, listed twice around one that is not. -/
theorem run_check_refused :
    let files : Files := fun path =>
      if path = "locales/en.json" then some r#"{ "gender": { "f": "Lady" } }"#
      else if path = "locales/pl.json" then some r#"{ "gender": { "f": "@m" } }"#
      else none
    let args := ["--color=always", "check", "locales/pl.json", "--json", "locales/en.json",
      "locales/pl.json", "--text", "@{f:she}"]
    (run files args).code.toNat = 65 ∧
      ∃ reports, Json.read (run files args).stdout = some (.array reports) ∧
        reports.length = 3 := by
  intro files args
  let text := "@{f:she}"
  let plain := ["check", "--text", text, "--", "locales/en.json", "locales/pl.json"]
  let listed := ["locales/pl.json", "locales/en.json", "locales/pl.json"]
  have hparse : Invocation.parse args =
      some (.perform .always (.check ⟨listed, none, some text, true⟩)) := by
    decide +kernel
  obtain ⟨code, -, hrun⟩ :=
    (run_check files).1 ["locales/en.json", "locales/pl.json"] none (some text)
  have hplain := hrun plain .auto _ false (fun _ => Iff.rfl) (by decide +kernel)
  have hcode := hrun args .always listed true (by simp [listed]) hparse
  have hprogram : (run files plain).code.toNat = 65 := by decide +kernel
  obtain ⟨reports, hread, hreports⟩ :=
    (run_check files).2.1 args .always _ hparse rfl (by decide +kernel)
  exact ⟨hcode.trans (hplain.symm.trans hprogram), reports, hread, hreports.length_eq.symm⟩

end Inflection.Command
