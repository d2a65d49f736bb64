import Inflection.Name
import Inflection.Options.Switch
import Inflection.SortedMap.Basic

/-!
# Options of a call

The options of a call are pairs of a key and a value.  The key of a switch overrides that switch;
any other key asks for a token of the kind it names.  For a strict kind the key with the mark
before it comes first.
-/

namespace Inflection

/-- The mark keeps the keys of strict kinds apart from those of switches. -/
theorem isReservedKey_putMark (name : String) : isReservedKey (putMark name) = false := by
  rw [isReservedKey, Option.isSome_eq_false_iff, Option.isNone_iff_eq_none]
  cases h : Switch.ofKey? (putMark name) with
  | none => rfl
  | some x =>
    have hmarked : isMarked x.key := Switch.key_of_ofKey? h ▸ isMarked_putMark name
    cases x <;> exact absurd hmarked (by decide)

/-- Why an option pair is refused. -/
inductive OptionsError where
  /-- A switch is given a value other than `true` or `false`. -/
  | invalidSwitch (key value : String)
deriving DecidableEq, Repr

/-- The text of the error. -/
def OptionsError.message : OptionsError → String
  | invalidSwitch key value => s!"switch '{key}' expects true or false, got '{value}'"

/-- The tokens that a call asks for, and the switches that it overrides. -/
structure Options where
  requests : SortedMap String
  overrides : Overrides
deriving DecidableEq

namespace Options

/-- No options. -/
def empty : Options := ⟨∅, .const none⟩

instance : Inhabited Options := ⟨empty⟩

/-- Reads the value of a switch. -/
def readFlag : String → Option Bool
  | "true" => some true
  | "false" => some false
  | _ => none

/-- Adds a pair, in place of an earlier one with its key. -/
def insert (o : Options) (key value : String) : Except OptionsError Options :=
  match Switch.ofKey? key with
  | none => .ok { o with requests := o.requests.insert key value }
  | some x =>
    match readFlag value with
    | some b => .ok { o with overrides := o.overrides.set x (some b) }
    | none => .error (.invalidSwitch key value)

/-- Adds a pair, or leaves the options alone if it is refused. -/
def insertIfValid (o : Options) (key value : String) : Options :=
  match o.insert key value with
  | .ok o' => o'
  | .error _ => o

/-- Overrides a switch. -/
def override (o : Options) (x : Switch) (b : Bool) : Options :=
  { o with overrides := o.overrides.set x (some b) }

/-- The options of a list of pairs, or the first refusal. -/
def ofPairs (pairs : List (String × String)) : Except OptionsError Options :=
  pairs.foldlM (fun o p => o.insert p.1 p.2) empty

/-- The value of a key that is no switch. -/
def get? (o : Options) (key : String) : Option String := o.requests.get? key

/-- The token asked for, where an empty value asks for none. -/
def requested? (o : Options) (kind : String) (strict : Bool) : Option String :=
  let plain := (o.get? kind).filter (· != "")
  if strict then ((o.get? (putMark kind)).filter (· != "")).or plain else plain

/-- The pairs whose keys are no switches, in key order. -/
def toList (o : Options) : List (String × String) := o.requests.toList

/-- Whether no token is asked for. -/
def isEmpty (o : Options) : Bool := o.requests.isEmpty

end Options

end Inflection
