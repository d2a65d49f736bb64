import Inflection.Json.Failure

/-!
# Numbers in JSON

A configuration holds no numbers, so one is read only to say what was found.  A number without
fraction and exponent is an integer if it fits into 64 bits, unsigned or, after a minus sign,
signed.  Any other is a double: its significand is the longest run of its digits that fits into
64 bits, scaled by a power of ten.
-/

namespace Inflection.Json

/-- The value of a decimal digit. -/
def digit? (c : Char) : Option Nat := if c.isDigit then some (c.toNat - '0'.toNat) else none

/-- The digits that a text begins with, and the rest of it. -/
def spanDigits (cs : List Char) : List Nat × List Char :=
  ((cs.takeWhile Char.isDigit).filterMap digit?, cs.dropWhile Char.isDigit)

/-- Adds digits to a significand while it fits into 64 bits, and counts those left over. -/
def absorb (significand : Nat) : List Nat → Nat × Nat
  | [] => (significand, 0)
  | d :: ds =>
    if significand * 10 + d < Nat.pow 2 64 then absorb (significand * 10 + d) ds
    else (significand, ds.length + 1)

/-- A double divided by a power of ten, in steps within the range of doubles. -/
def scaleDown (x : Float) (e : Nat) : Float :=
  if e ≤ 308 then x / Float.ofScientific 1 false e
  else if x == 0 then x
  else scaleDown (x / Float.ofScientific 1 false 308) (e - 308)
termination_by e

/-- The double significand · 10^exponent, unless it is too large. -/
def scale? (significand : Nat) (exponent : Int) : Option Float :=
  let x := significand.toUInt64.toFloat
  if exponent < 0 then some (scaleDown x (-exponent).toNat)
  else if exponent ≤ 308 then
    let y := x * Float.ofScientific 1 false exponent.toNat
    if y.isInf then none else some y
  else if x == 0 then some x
  else none

/-- The double significand · 10^exponent as it is found before the rest of a text. -/
def foundDecimal (negative : Bool) (significand : Nat) (exponent : Int) (rest : List Char) :
    Except Failure (Found × List Char) :=
  match scale? significand exponent with
  | some x => .ok (.decimal (.shortest (if negative then -x else x).toBits), rest)
  | none => .error (.before .numberOutOfRange rest)

/-- Reads the digits of an exponent, up to where they exceed 31 bits. -/
def readExponentDigits (exponent : Nat) : List Char → Nat × List Char
  | [] => (exponent, [])
  | c :: cs =>
    match digit? c with
    | none => (exponent, c :: cs)
    | some d =>
      if exponent * 10 + d < Nat.pow 2 31 then readExponentDigits (exponent * 10 + d) cs
      else (exponent * 10 + d, cs)

/-- Reads an exponent after its letter. -/
def readExponent (negative : Bool) (significand : Nat) (start : Int) (cs : List Char) :
    Except Failure (Found × List Char) :=
  let (down, cs) : Bool × List Char := match cs with
    | '+' :: cs => (false, cs)
    | '-' :: cs => (true, cs)
    | cs => (false, cs)
  match cs with
  | [] => .error (.before .endInValue [])
  | c :: rest =>
    if c.isDigit then
      let (exponent, rest) := readExponentDigits 0 (c :: rest)
      if exponent < Nat.pow 2 31 then
        foundDecimal negative significand (if down then start - exponent else start + exponent)
          rest
      else if significand != 0 && !down then .error (.before .numberOutOfRange rest)
      else foundDecimal negative 0 0 (rest.dropWhile Char.isDigit)
    else .error (.into .invalidNumber (c :: rest))

/-- Reads what follows the digits of a fraction. -/
def readAfterFraction (negative : Bool) (significand : Nat) (exponent : Int)
    (cs : List Char) : Except Failure (Found × List Char) :=
  match cs with
  | 'e' :: rest => readExponent negative significand exponent rest
  | 'E' :: rest => readExponent negative significand exponent rest
  | rest => foundDecimal negative significand exponent rest

/-- Reads a fraction after its point. -/
def readFraction (negative : Bool) (significand : Nat) (exponent : Int) (cs : List Char) :
    Except Failure (Found × List Char) :=
  match spanDigits cs with
  | ([], []) => .error (.before .endInValue [])
  | ([], rest) => .error (.into .invalidNumber rest)
  | (digits, rest) =>
    let (significand, left) := absorb significand digits
    readAfterFraction negative significand (exponent - (digits.length - left : Nat)) rest

/-- Reads a number after its sign. -/
def readNumber (negative : Bool) (cs : List Char) : Except Failure (Found × List Char) :=
  match spanDigits cs with
  | ([], []) => .error (.before .endInValue [])
  | ([], rest) => .error (.into .invalidNumber rest)
  | (0 :: _ :: _, _) => .error (.into .invalidNumber (cs.drop 1))
  | (digits, rest) =>
    let (significand, left) := absorb 0 digits
    match rest with
    | '.' :: rest => readFraction negative significand left rest
    | 'e' :: rest => readExponent negative significand left rest
    | 'E' :: rest => readExponent negative significand left rest
    | rest =>
      if left = 0 && !negative then .ok (.integer significand, rest)
      else if left = 0 && 0 < significand && significand ≤ Nat.pow 2 63 then
        .ok (.integer (-significand), rest)
      else foundDecimal negative significand left rest

end Inflection.Json
