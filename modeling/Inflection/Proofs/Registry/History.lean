import Inflection.Proofs.Lexicon.Load
import Inflection.Session
import Inflection.SortedMap.Lemmas
import Mathlib.Data.List.Induction

/-!
# What a session has seen

The calls made on a registry say by themselves what it has: for each locale the data of the last
call that put some there, unless a later one dropped them.  `Call.Leave` says so without the
registry, and a session answers accordingly after any calls.

## Main statements

* `Session.lexicon?_after`: the data of a locale are those that the calls leave.
* `Session.holds_after`: what is held stays as it was, whatever becomes of the locale.
* `Session.answers_after`: all replies of a session, read off the calls before.
-/

namespace Inflection

/-! ## What calls say -/

namespace Call

/-- A call puts data under a locale: it loads them from a tree that is accepted or installs them. -/
inductive Puts : Call → String → Lexicon → Prop
  | load {locale : String} {tree : RawTree} {d : Lexicon} (h : Lexicon.load locale tree = .ok d) :
      Puts (.load locale tree) locale d
  | install (d : Lexicon) : Puts (.install d) d.locale d

/-- A call drops or puts the data of a locale. -/
def Touches (call : Call) (locale : String) : Prop :=
  call = .unload locale ∨ ∃ d, call.Puts locale d

/-- Calls leave data under a locale: one of them puts the data there, and none after it drops or
puts any. -/
def Leave (calls : List Call) (locale : String) (d : Lexicon) : Prop :=
  ∃ before call after, calls = before ++ call :: after ∧ call.Puts locale d ∧
    ∀ c ∈ after, ¬c.Touches locale

/-- Calls give patterns the data that they leave under a locale, or none. -/
def Serve (calls : List Call) (locale : String) (d : Lexicon) : Prop :=
  Leave calls locale d ∨ (∀ d', ¬Leave calls locale d') ∧ d = .empty locale

/-- The switches that a call sets. -/
def switches? : Call → Option Switches
  | .setSwitches s => some s
  | _ => none

/-- The switches that were set last, or else those at the start. -/
def lastSwitches (start : Switches) (calls : List Call) : Switches :=
  (calls.filterMap switches?).getLastD start

variable {call : Call} {calls : List Call} {locale : String} {d d' : Lexicon}

/-- Data are put under their own locale. -/
theorem Puts.locale_eq (h : call.Puts locale d) : d.locale = locale := by
  cases h with
  | load h => exact (Lexicon.describes_of_load h).locale_eq.1
  | install => rfl

theorem Puts.unique (h : call.Puts locale d) (h' : call.Puts locale d') : d = d' := by
  cases h with
  | load h =>
    cases h' with
    | load h' => exact Except.ok.inj (h.symm.trans h')
  | install =>
    cases h'
    rfl

theorem Puts.touches (h : call.Puts locale d) : call.Touches locale := .inr ⟨d, h⟩

theorem not_leave_nil : ¬Leave [] locale d := by
  rintro ⟨before, call, after, hcalls, -⟩
  exact absurd hcalls (by simp)

/-- After one more call a locale has what this call puts there, or what it had before. -/
theorem leave_concat_iff : Leave (calls ++ [call]) locale d ↔
    call.Puts locale d ∨ ¬call.Touches locale ∧ Leave calls locale d := by
  refine ⟨?_, ?_⟩
  · rintro ⟨before, c, after, hcalls, hputs, hafter⟩
    rcases List.eq_nil_or_concat after with rfl | ⟨after, last, rfl⟩
    · obtain ⟨rfl, hlast⟩ := List.append_inj' hcalls rfl
      obtain ⟨rfl, -⟩ := List.cons.inj hlast
      exact .inl hputs
    · rw [List.concat_eq_append, ← List.cons_append, ← List.append_assoc] at hcalls
      obtain ⟨rfl, hlast⟩ := List.append_inj' hcalls rfl
      obtain ⟨rfl, -⟩ := List.cons.inj hlast
      rw [List.concat_eq_append, List.forall_mem_append] at hafter
      exact .inr ⟨hafter.2 _ List.mem_cons_self, before, c, after, rfl, hputs, hafter.1⟩
  · rintro (hputs | ⟨htouches, before, c, after, rfl, hputs, hafter⟩)
    · exact ⟨calls, call, [], rfl, hputs, fun _ h => (nomatch h)⟩
    · refine ⟨before, c, after ++ [call], by simp, hputs, ?_⟩
      exact List.forall_mem_append.2 ⟨hafter, List.forall_mem_singleton.2 htouches⟩

/-- What is left under a locale are its own data. -/
theorem Leave.locale_eq (h : Leave calls locale d) : d.locale = locale := by
  obtain ⟨before, call, after, -, hputs, -⟩ := h
  exact hputs.locale_eq

end Call

namespace Session

/-! ## One call -/

variable {s : Session} {call : Call} {locale name : String} {d : Lexicon}

/-- What a call is answered. -/
def reply (s : Session) (call : Call) : Reply := (s.perform call).2

theorem perform_load_of_error {tree : RawTree} {e : LoadError}
    (h : Lexicon.load locale tree = .error e) :
    s.perform (.load locale tree) = (s, .loaded (.error e)) := by
  rw [perform, Registry.load, h]
  rfl

theorem perform_load_of_ok {tree : RawTree} (h : Lexicon.load locale tree = .ok d) :
    s.perform (.load locale tree) =
      ({ s with registry := (s.registry.install d).2 }, .loaded (.ok d.tokenCount)) := by
  rw [perform, Registry.load, h]
  rfl

theorem lexicon?_perform_of_puts (h : call.Puts locale d) :
    (s.perform call).1.registry.lexicon? locale = some d := by
  have hlocale := h.locale_eq
  cases h with
  | load h =>
    rw [perform_load_of_ok h, ← hlocale]
    exact SortedMap.get?_insert_self ..
  | install => exact SortedMap.get?_insert_self ..

theorem lexicon?_perform_unload :
    (s.perform (.unload locale)).1.registry.lexicon? locale = none :=
  (SortedMap.get?_erase ..).trans (if_pos rfl)

/-- A call that does not put or drop the data of a locale leaves them alone. -/
theorem lexicon?_perform_of_not_touches (h : ¬call.Touches locale) :
    (s.perform call).1.registry.lexicon? locale = s.registry.lexicon? locale := by
  cases call with
  | load locale' tree =>
    cases hload : Lexicon.load locale' tree with
    | error e => rw [perform_load_of_error hload]
    | ok d =>
      rw [perform_load_of_ok hload]
      have hputs : (Call.load locale' tree).Puts locale' d := .load hload
      obtain rfl := hputs.locale_eq
      refine SortedMap.get?_insert_of_ne _ _ ?_
      rintro rfl
      exact h hputs.touches
  | install d =>
    refine SortedMap.get?_insert_of_ne _ _ ?_
    rintro rfl
    exact h (Call.Puts.install d).touches
  | unload locale' =>
    refine (SortedMap.get?_erase ..).trans (if_neg ?_)
    rintro rfl
    exact h (.inl rfl)
  | lexicon | hasLocale | localeNames | switches | setSwitches | interpolate | lint | hold
    | held => rfl

theorem switches_perform : (s.perform call).1.registry.switches =
    call.switches?.getD s.registry.switches := by
  cases call with
  | load locale tree =>
    cases hload : Lexicon.load locale tree with
    | error e => rw [perform_load_of_error hload]; rfl
    | ok d => rw [perform_load_of_ok hload]; rfl
  | install | unload | lexicon | hasLocale | localeNames | switches | setSwitches | interpolate
    | lint | hold | held => rfl

theorem holds_perform_of_ne (h : ∀ locale, call ≠ .hold name locale) :
    (s.perform call).1.holds.get? name = s.holds.get? name := by
  cases call with
  | load locale tree =>
    cases hload : Lexicon.load locale tree with
    | error e => rw [perform_load_of_error hload]
    | ok d => rw [perform_load_of_ok hload]
  | hold name' locale =>
    refine SortedMap.get?_insert_of_ne _ _ ?_
    rintro rfl
    exact h locale rfl
  | install | unload | lexicon | hasLocale | localeNames | switches | setSwitches | interpolate
    | lint | held => rfl

/-! ## All calls -/

variable {calls : List Call}

theorem after_concat (s : Session) (calls : List Call) (call : Call) :
    s.after (calls ++ [call]) = ((s.after calls).perform call).1 := by
  rw [after, List.foldl_append]
  rfl

theorem after_append (s : Session) (before after : List Call) :
    s.after (before ++ after) = (s.after before).after after := List.foldl_append

/-- The data of a locale are those that the calls leave there. -/
theorem lexicon?_after (switches : Switches) (calls : List Call) (locale : String) (d : Lexicon) :
    ((start switches).after calls).registry.lexicon? locale = some d ↔
      Call.Leave calls locale d := by
  induction calls using List.reverseRecOn with
  | nil =>
    refine ⟨?_, fun h => absurd h Call.not_leave_nil⟩
    intro h
    cases h
  | append_singleton calls call ih =>
    rw [after_concat, Call.leave_concat_iff]
    by_cases htouches : call.Touches locale
    · rcases htouches with rfl | ⟨d', hputs⟩
      · rw [lexicon?_perform_unload]
        refine ⟨fun h => (nomatch h), ?_⟩
        rintro (hputs | ⟨hnot, -⟩)
        · cases hputs
        · exact absurd (.inl rfl) hnot
      · rw [lexicon?_perform_of_puts hputs]
        refine ⟨fun h => .inl (Option.some.inj h ▸ hputs), ?_⟩
        rintro (hputs' | ⟨hnot, -⟩)
        · exact congrArg some (hputs.unique hputs')
        · exact absurd hputs.touches hnot
    · rw [lexicon?_perform_of_not_touches htouches, ih, and_iff_right htouches,
        or_iff_right fun h => htouches h.touches]

theorem switches_after (switches : Switches) (calls : List Call) :
    ((start switches).after calls).registry.switches = Call.lastSwitches switches calls := by
  induction calls using List.reverseRecOn with
  | nil => rfl
  | append_singleton calls call ih =>
    rw [after_concat, switches_perform, ih, Call.lastSwitches, Call.lastSwitches,
      List.filterMap_append]
    cases hswitches : call.switches? with
    | none => simp [hswitches]
    | some switches' => simp [hswitches]

/-- What is held under a name stays as it was until something else is held there. -/
theorem holds_after (h : ∀ call ∈ calls, ∀ locale, call ≠ .hold name locale) :
    (s.after calls).holds.get? name = s.holds.get? name := by
  induction calls generalizing s with
  | nil => rfl
  | cons call calls ih =>
    obtain ⟨hcall, hcalls⟩ := List.forall_mem_cons.1 h
    exact (ih hcalls).trans (holds_perform_of_ne hcall)

/-! ## All replies -/

/-- A session that began with some switches answers by the calls made since: what it tells of the
locales, what a put or a drop gives back, what is rendered and warned of, and what has been held. -/
structure Answers (initial : Switches) (calls : List Call) (s : Session) : Prop where
  lexicon : ∀ locale, ∃ d?, s.perform (.lexicon locale) = (s, .data d?) ∧
    ∀ d, d? = some d ↔ Call.Leave calls locale d
  hasLocale : ∀ locale, ∃ b, s.perform (.hasLocale locale) = (s, .flag b) ∧
    (b ↔ ∃ d, Call.Leave calls locale d)
  localeNames : ∃ names, s.perform .localeNames = (s, .names names) ∧ names.Pairwise (· < ·) ∧
    ∀ locale, locale ∈ names ↔ ∃ d, Call.Leave calls locale d
  locale_eq : ∀ {locale d}, Call.Leave calls locale d → d.locale = locale
  install : ∀ d, s.reply (.install d) = s.reply (.lexicon d.locale)
  unload : ∀ locale, s.reply (.unload locale) = s.reply (.hasLocale locale)
  load_ok : ∀ {locale tree d}, Lexicon.load locale tree = .ok d →
    s.reply (.load locale tree) = .loaded (.ok d.tokenCount)
  load_error : ∀ {locale tree e}, Lexicon.load locale tree = .error e →
    s.perform (.load locale tree) = (s, .loaded (.error e))
  switches : s.perform .switches = (s, .switches (Call.lastSwitches initial calls))
  reads : ∀ locale, ∃ d, Call.Serve calls locale d ∧ ∀ text,
    (∀ options, s.perform (.interpolate text locale options) =
      (s, .rendered (interpolate text d (Call.lastSwitches initial calls) options))) ∧
    s.perform (.lint text locale) = (s, .warnings (lint text d))
  held : ∀ {before name locale after}, calls = before ++ .hold name locale :: after →
    (∀ call ∈ after, ∀ locale', call ≠ .hold name locale') →
    s.perform (.held name) = (s, ((start initial).after before).reply (.lexicon locale))

/-- Whatever is loaded, installed, dropped, set, rendered, checked, asked and held before, and in
whatever order, a session answers by these calls alone. -/
theorem answers_after (switches : Switches) (calls : List Call) :
    ((start switches).after calls).Answers switches calls where
  lexicon locale := ⟨_, rfl, lexicon?_after switches calls locale⟩
  hasLocale locale := by
    refine ⟨_, rfl, ?_⟩
    rw [Registry.hasLocale, SortedMap.contains_eq_isSome, Option.isSome_iff_exists]
    exact exists_congr (lexicon?_after switches calls locale)
  localeNames := by
    refine ⟨_, rfl, SortedMap.keys_sorted _, ?_⟩
    intro locale
    rw [Registry.localeNames, SortedMap.mem_keys_iff, SortedMap.contains_eq_isSome,
      Option.isSome_iff_exists]
    exact exists_congr (lexicon?_after switches calls locale)
  locale_eq h := h.locale_eq
  install _ := rfl
  unload _ := rfl
  load_ok h := by rw [reply, perform_load_of_ok h]
  load_error h := perform_load_of_error h
  switches := congrArg (fun s' => (_, Reply.switches s')) (switches_after switches calls)
  reads locale := by
    refine ⟨((start switches).after calls).registry.lexicon locale, ?_, ?_⟩
    · cases hd : ((start switches).after calls).registry.lexicon? locale with
      | none =>
        refine .inr ⟨?_, ?_⟩
        · intro d' hleave
          rw [← lexicon?_after switches, hd] at hleave
          cases hleave
        · rw [Registry.lexicon, hd, Option.getD_none]
      | some d =>
        rw [Registry.lexicon, hd, Option.getD_some]
        exact .inl ((lexicon?_after switches calls locale d).1 hd)
    · intro text
      rw [← switches_after]
      exact ⟨fun _ => rfl, rfl⟩
  held {before name locale after} hcalls hafter := by
    subst hcalls
    rw [List.append_cons, after_append, after_concat]
    refine congrArg (fun d? => (_, Reply.data d?)) ?_
    rw [holds_after hafter]
    exact congrArg Option.join (SortedMap.get?_insert_self ..)

end Session

end Inflection
