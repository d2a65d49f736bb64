import Inflection.Command.Run
import Inflection.Proofs.Command.Arguments
import Inflection.Proofs.Json.RoundTrip
import Inflection.Proofs.Lexicon.Load
import Inflection.Proofs.Render.Mirror

/-!
# Rendering on the command line

`Evaluates` says what the library makes of a configuration, a text and option pairs: the stages in
their order, and the exit code and the text that belong to where they end.  The program gives that
exit code, and writes that text or nothing.  A tree is refused for every locale or for none, and its
lexicons have the same look-ups under every locale, so neither depends on the locale.

## Main statements

* `RawTree.Describes.mirrors`: a tree means the same under every locale.
* `exists_evaluates`: some exit code and text belong to the evaluation under every locale.
* `run_eval`: the program gives that code and writes that text, and every evaluation can be asked
  for.
-/

namespace Inflection

/-! ## Locales -/

/-- A tree means the same under every locale. -/
theorem RawTree.Describes.mirrors {tree : RawTree} {locale locale' : String} {d d' : Lexicon}
    (h : tree.Describes locale d) (h' : tree.Describes locale' d') : d.Mirrors d' where
  hasKind kind := by
    have ht (name) : d'.strict.token? name kind = d.strict.token? name kind :=
      Option.ext fun t => h'.strict.trans h.strict.symm
    rw [Bool.eq_iff_iff, h'.kind_strict, h.kind_strict]
    simp only [ht]
  token?_loose name := by
    refine Option.ext fun t => ?_
    rw [LooseStore.token?_eq_some_iff, LooseStore.token?_eq_some_iff, h'.loose, h.loose]
  token?_strict _ _ := Option.ext fun _ => h'.strict.trans h.strict.symm
  default?_loose _ := Option.ext fun _ => h'.default_loose.trans h.default_loose.symm
  default?_strict _ := Option.ext fun _ => h'.default_strict.trans h.default_strict.symm

namespace Config

variable {content locale : String} {d : Lexicon}

theorem load_eq_ok_iff_readTree : load content locale = .ok d ↔
    ∃ tree, Json.readTree content.toList = .ok tree ∧ Lexicon.load locale tree = .ok d := by
  simp only [load]
  cases Json.readTree content.toList with
  | error f => simp
  | ok tree =>
    simp only [Except.ok.injEq, exists_eq_left']
    cases Lexicon.load locale tree <;> simp [Except.mapError]

/-- Data are loaded under the locale that is given. -/
theorem locale_eq_of_load (h : load content locale = .ok d) : d.locale = locale := by
  obtain ⟨tree, -, h⟩ := load_eq_ok_iff_readTree.1 h
  exact (Lexicon.describes_of_load h).locale_eq.1

/-- A configuration is refused for every locale, or it means the same under each. -/
theorem load_forall_locale (content : String) :
    (∀ locale, ∃ e, load content locale = .error e) ∨
      ∃ d : Lexicon, ∀ locale, ∃ d', load content locale = .ok d' ∧ d.Mirrors d' := by
  by_cases hloadable : ∃ tree, Json.readTree content.toList = .ok tree ∧ tree.Loadable
  case pos =>
    obtain ⟨tree, hread, hloadable⟩ := hloadable
    obtain ⟨d, hd⟩ := Lexicon.exists_load_of_loadable hloadable ""
    refine .inr ⟨d, ?_⟩
    intro locale
    obtain ⟨d', hd'⟩ := Lexicon.exists_load_of_loadable hloadable locale
    exact ⟨d', load_eq_ok_iff_readTree.2 ⟨tree, hread, hd'⟩,
      (Lexicon.describes_of_load hd).mirrors (Lexicon.describes_of_load hd')⟩
  case neg =>
    refine .inl ?_
    intro locale
    cases hload : load content locale with
    | error e => exact ⟨e, rfl⟩
    | ok d =>
      obtain ⟨tree, hread, hd⟩ := load_eq_ok_iff_readTree.1 hload
      exact absurd ⟨tree, hread, Lexicon.loadable_of_load hd⟩ hloadable

end Config

theorem Registry.interpolate_install (r : Registry) (d : Lexicon) (text : String)
    (options : Options) :
    (r.install d).2.interpolate text d.locale options =
      Inflection.interpolate text d r.switches options := by
  rw [interpolate, lexicon, lexicon?, install, SortedMap.get?_insert_self]
  rfl

namespace Command

/-! ## Evaluations -/

/-- What the library makes of a configuration, a text and option pairs under a locale: the number
of an exit code, and the text if it is rendered. -/
inductive Evaluates (content? : Option String) (locale text : String)
    (pairs : List (String × String)) : Nat → Option String → Prop
  | unreadable (hread : content? = none) : Evaluates content? locale text pairs 70 none
  | refused {content : String} {e : Config.Diagnostic} (hread : content? = some content)
      (hload : Config.load content locale = .error e) :
      Evaluates content? locale text pairs 65 none
  | badOption {content : String} {d : Lexicon} {e : OptionsError} (hread : content? = some content)
      (hload : Config.load content locale = .ok d) (hpairs : Options.ofPairs pairs = .error e) :
      Evaluates content? locale text pairs 70 none
  | rendered {content s : String} {d : Lexicon} {o : Options} (hread : content? = some content)
      (hload : Config.load content locale = .ok d) (hpairs : Options.ofPairs pairs = .ok o)
      (hs : interpolate text d .standard o = .ok s) : Evaluates content? locale text pairs 0 (some s)
  | failed {content : String} {d : Lexicon} {o : Options} {e : Fault}
      (hread : content? = some content) (hload : Config.load content locale = .ok d)
      (hpairs : Options.ofPairs pairs = .ok o) (hs : interpolate text d .standard o = .error e) :
      Evaluates content? locale text pairs 65 none

/-- An evaluation ends in one way. -/
theorem Evaluates.unique {content? : Option String} {locale text : String}
    {pairs : List (String × String)} {code code' : Nat} {result? result?' : Option String}
    (h : Evaluates content? locale text pairs code result?)
    (h' : Evaluates content? locale text pairs code' result?') :
    code = code' ∧ result? = result?' := by
  cases h <;> cases h' <;> simp_all

/-- What is written of a text that is rendered: the text on a line, or an object of the locale and
the text.  Nothing is written if none is. -/
def Prints (json : Bool) (locale : String) (result? : Option String) (stdout : String) : Prop :=
  match result? with
  | none => stdout = ""
  | some s =>
    if json then
      Json.readObject Json.readStringOrNull stdout.toList =
        .ok (.ofList [("locale", some locale), ("result", some s)], ['\n'])
    else stdout = s ++ "\n"

variable {files : Files}

/-- Some exit code and text belong to the evaluation under every locale. -/
theorem exists_evaluates (content? : Option String) (text : String)
    (pairs : List (String × String)) :
    ∃ code result?, ∀ locale, Evaluates content? locale text pairs code result? := by
  cases content? with
  | none => exact ⟨70, none, fun _ => .unreadable rfl⟩
  | some content =>
    rcases Config.load_forall_locale content with hrefused | ⟨d, hload⟩
    · refine ⟨65, none, ?_⟩
      intro locale
      obtain ⟨e, he⟩ := hrefused locale
      exact .refused rfl he
    · cases hpairs : Options.ofPairs pairs with
      | error e =>
        refine ⟨70, none, ?_⟩
        intro locale
        obtain ⟨d', hd', -⟩ := hload locale
        exact .badOption rfl hd' hpairs
      | ok o =>
        cases hs : interpolate text d .standard o with
        | error e =>
          refine ⟨65, none, ?_⟩
          intro locale
          obtain ⟨d', hd', hmirrors⟩ := hload locale
          exact .failed rfl hd' hpairs ((hmirrors.interpolate text .standard o).trans hs)
        | ok s =>
          refine ⟨0, some s, ?_⟩
          intro locale
          obtain ⟨d', hd', hmirrors⟩ := hload locale
          exact .rendered rfl hd' hpairs ((hmirrors.interpolate text .standard o).trans hs)

/-- The object that is written of a text is read back. -/
theorem prints_resultJson (locale s : String) :
    Prints true locale (some s) ((resultJson locale s).pretty ++ "\n") := by
  have hfields : Json.FieldsRestored Json.readStringOrNull .pretty 1
      [("locale", .string locale), ("result", .string s)]
      [("locale", some locale), ("result", some s)] :=
    .cons ⟨rfl, Json.Restores.ofString? _ _ (some locale)⟩
      (.cons ⟨rfl, Json.Restores.ofString? _ _ (some s)⟩ .nil)
  have hread := Json.Restores.object Json.Layout.spaced_pretty hfields [] ['\n']
    (fun _ h => absurd h List.not_mem_nil)
  rw [Prints, if_pos rfl, String.toList_append, Json.pretty, String.toList_ofList]
  exact hread

/-- The program ends as the evaluation does under the locale that is used. -/
theorem runEval_of_evaluates {a : EvalArguments} {code : Nat} {result? : Option String}
    (h : Evaluates (files a.config) (Config.localeFor a.config a.locale?) a.text a.options code
      result?) :
    (runEval files a).code.toNat = code ∧
      Prints a.json (Config.localeFor a.config a.locale?) result? (runEval files a).stdout := by
  have hinstalled {content : String} {d : Lexicon}
      (hload : Config.load content (Config.localeFor a.config a.locale?) = .ok d) (o : Options) :
      ((Registry.empty .standard).install d).2.interpolate a.text
        (Config.localeFor a.config a.locale?) o = interpolate a.text d .standard o := by
    rw [← Config.locale_eq_of_load hload]
    exact Registry.interpolate_install ..
  unfold runEval
  cases h with
  | unreadable hread =>
    simp only [hread]
    exact ⟨rfl, rfl⟩
  | refused hread hload =>
    simp only [hread, hload]
    exact ⟨rfl, rfl⟩
  | badOption hread hload hpairs =>
    simp only [hread, hload, hpairs]
    exact ⟨rfl, rfl⟩
  | failed hread hload hpairs hs =>
    simp only [hread, hload, hpairs, hinstalled hload, hs]
    exact ⟨rfl, rfl⟩
  | @rendered _ s _ _ hread hload hpairs hs =>
    simp only [hread, hload, hpairs, hinstalled hload, hs]
    refine ⟨rfl, ?_⟩
    cases a.json with
    | false => rfl
    | true => exact prints_resultJson _ s

/-- The program renders as the library does: what the library makes of a configuration, a text and
option pairs, under whatever locale, is the exit code and the text that is written, be it on a line
or in an object.  What is asked for is what a line gives, with the option pairs split at their first
equals signs; and some line asks for each evaluation. -/
theorem run_eval (files : Files) :
    (∀ config text pairs, ∃ code result?,
      (∀ locale code' result?', Evaluates (files config) locale text pairs code' result?' ↔
        code' = code ∧ result?' = result?) ∧
      ∀ args color locale? json,
        Invocation.parse args =
            some (.perform color (.eval ⟨config, locale?, text, pairs, json⟩)) →
          (run files args).code.toNat = code ∧
            Prints json (Config.localeFor config locale?) result? (run files args).stdout) ∧
    (∀ args color a, Invocation.parse args = some (.perform color (.eval a)) →
      ∃ before rest r, read .top args = some ⟨before, .command "eval" rest⟩ ∧
        read .eval rest = some r ∧ Given r.arguments a) ∧
    ∀ a : EvalArguments, a.config ≠ "" → (∀ pair ∈ a.options, '=' ∉ pair.1.toList) →
      Invocation.parse a.line = some (.perform .auto (.eval a)) := by
  refine ⟨?_, fun _ _ _ => exists_given_of_parse, fun _ => parse_line⟩
  intro config text pairs
  obtain ⟨code, result?, h⟩ := exists_evaluates (files config) text pairs
  refine ⟨code, result?, ?_, ?_⟩
  · intro locale code' result?'
    refine ⟨fun h' => h'.unique (h locale), ?_⟩
    rintro ⟨rfl, rfl⟩
    exact h locale
  · intro args color locale? json hparse
    rw [run, hparse]
    exact runEval_of_evaluates (a := ⟨config, locale?, text, pairs, json⟩) (h _)

/-- A text with quotes that is rendered for a locale that is named after the file. -/
theorem run_eval_quotes :
    let files : Files := fun path =>
      if path = "locales/en.json" then
        some r#"{ "gender": { "f": "Lady", "lady": "@f" } }"#
      else none
    let args := ["-v", "eval", "--config", "locales/en.json", "-ogender=lady", "--json",
      r#"--text=The "@{f:~|friend}""#]
    (run files args).code.toNat = 0 ∧
      Prints true "en" (some "The \"Lady\"") (run files args).stdout := by
  intro files args
  let text := r#"The "@{f:~|friend}""#
  let plain := ["eval", "--text", text, "--locale=pl", "-o", "gender=lady",
    "--config=locales/en.json"]
  obtain ⟨code, result?, -, hrun⟩ :=
    (run_eval files).1 "locales/en.json" text [("gender", "lady")]
  obtain ⟨hcode, hplain⟩ := hrun plain .auto (some "pl") false (by decide +kernel)
  obtain ⟨hcode', hjson⟩ := hrun args .auto none true (by decide +kernel)
  have hprogram : (run files plain).code.toNat = 0 ∧
      (run files plain).stdout = "The \"Lady\"\n" := by
    decide +kernel
  have hlocale : Config.localeFor "locales/en.json" none = "en" := by decide +kernel
  rw [hlocale] at hjson
  refine ⟨hcode'.trans (hcode.symm.trans hprogram.1), ?_⟩
  rw [hprogram.2] at hplain
  cases result? with
  | none =>
    have hnone : "The \"Lady\"\n" = "" := hplain
    exact absurd hnone (by decide)
  | some s =>
    have hs : "The \"Lady\"" ++ "\n" = s ++ "\n" := hplain
    rw [String.append_left_inj] at hs
    rwa [hs]

end Command

end Inflection
