/-!
# Switches

Four switches govern how patterns are rendered.  A registry has a value for each; one call may
override some of them by option pairs with reserved keys.
-/

namespace Inflection

/-- A switch of the rendering. -/
inductive Switch where
  /-- Whether the first fault of a text is an error. -/
  | raises
  /-- Whether patterns may mention aliases. -/
  | aliasedPatterns
  /-- Whether the default stands in for a missing or unknown option. -/
  | unknownDefaults
  /-- Whether the clause of the default stands in for a token that no clause mentions. -/
  | excludedDefaults
deriving DecidableEq, Repr

namespace Switch

/-- All switches. -/
def all : List Switch := [raises, aliasedPatterns, unknownDefaults, excludedDefaults]

/-- The option key that overrides a switch. -/
def key : Switch → String
  | raises => "inflector_raises"
  | aliasedPatterns => "inflector_aliased_patterns"
  | unknownDefaults => "inflector_unknown_defaults"
  | excludedDefaults => "inflector_excluded_defaults"

/-- The switch that a key overrides. -/
def ofKey? (s : String) : Option Switch := all.find? (·.key == s)

@[simp] theorem ofKey?_key (x : Switch) : ofKey? x.key = some x := by
  cases x <;> decide

theorem key_of_ofKey? {s : String} {x : Switch} (h : ofKey? s = some x) : x.key = s := by
  simpa using List.find?_some h

end Switch

/-- Whether a text is the key of a switch, and so the name of no kind of a configuration. -/
def isReservedKey (s : String) : Bool := (Switch.ofKey? s).isSome

/-- A value for each switch. -/
structure PerSwitch (α : Type) where
  raises : α
  aliasedPatterns : α
  unknownDefaults : α
  excludedDefaults : α
deriving DecidableEq, Repr

namespace PerSwitch

variable {α β γ : Type}

/-- The same value for each switch. -/
def const (a : α) : PerSwitch α := ⟨a, a, a, a⟩

/-- The value for a switch. -/
def get (p : PerSwitch α) : Switch → α
  | .raises => p.raises
  | .aliasedPatterns => p.aliasedPatterns
  | .unknownDefaults => p.unknownDefaults
  | .excludedDefaults => p.excludedDefaults

/-- Gives a switch another value. -/
def set (p : PerSwitch α) (x : Switch) (a : α) : PerSwitch α :=
  match x with
  | .raises => { p with raises := a }
  | .aliasedPatterns => { p with aliasedPatterns := a }
  | .unknownDefaults => { p with unknownDefaults := a }
  | .excludedDefaults => { p with excludedDefaults := a }

/-- Combines the values for each switch. -/
def zipWith (f : α → β → γ) (p : PerSwitch α) (q : PerSwitch β) : PerSwitch γ where
  raises := f p.raises q.raises
  aliasedPatterns := f p.aliasedPatterns q.aliasedPatterns
  unknownDefaults := f p.unknownDefaults q.unknownDefaults
  excludedDefaults := f p.excludedDefaults q.excludedDefaults

theorem get_set (p : PerSwitch α) (x y : Switch) (a : α) :
    (p.set x a).get y = if y = x then a else p.get y := by
  cases x <;> cases y <;> rfl

@[simp] theorem get_const (a : α) (x : Switch) : (const a).get x = a := by
  cases x <;> rfl

@[simp] theorem get_zipWith (f : α → β → γ) (p : PerSwitch α) (q : PerSwitch β) (x : Switch) :
    (zipWith f p q).get x = f (p.get x) (q.get x) := by
  cases x <;> rfl

theorem ext_get {p q : PerSwitch α} (h : ∀ x, p.get x = q.get x) : p = q := by
  cases p
  cases q
  have h₁ := h .raises
  have h₂ := h .aliasedPatterns
  have h₃ := h .unknownDefaults
  have h₄ := h .excludedDefaults
  simp only [get] at h₁ h₂ h₃ h₄
  rw [h₁, h₂, h₃, h₄]

end PerSwitch

/-- The switches in force. -/
abbrev Switches := PerSwitch Bool

/-- The switches that a call overrides. -/
abbrev Overrides := PerSwitch (Option Bool)

/-- The switches of a registry that sets none: only `unknownDefaults` is on. -/
def Switches.standard : Switches := ⟨false, false, true, false⟩

/-- The switches in force when some are overridden. -/
def Switches.merged (s : Switches) (o : Overrides) : Switches :=
  PerSwitch.zipWith (fun b o => o.getD b) s o

end Inflection
