/-!
# Shortest decimals

The shortest decimal that a stored double is nearest to.  A finite double is m · 2^q; the reals
that round to it lie between the midpoints to its neighbours, ends included if m is even.  For one
digit, two digits and so on the two neighbours of the double on that decimal grid are tested, in
exact arithmetic, and the first grid with a hit gives the digits.
-/

namespace Inflection

/-- The number digits · 10^exponent, possibly negative. -/
structure Decimal where
  negative : Bool
  digits : Nat
  exponent : Int
deriving DecidableEq, Repr

namespace Decimal

/-- A positive rational. -/
structure Ratio where
  num : Nat
  den : Nat
deriving DecidableEq, Repr

namespace Ratio

/-- The rational m · b^e. -/
def scaled (m b : Nat) (e : Int) : Ratio :=
  if 0 ≤ e then ⟨m * b.pow e.toNat, 1⟩ else ⟨m, b.pow (-e).toNat⟩

/-- The product of two rationals. -/
def mul (x y : Ratio) : Ratio := ⟨x.num * y.num, x.den * y.den⟩

/-- Whether a rational is below another. -/
def lt (x y : Ratio) : Bool := x.num * y.den < y.num * x.den

/-- Whether a rational is at most another. -/
def le (x y : Ratio) : Bool := x.num * y.den ≤ y.num * x.den

/-- The number of digits before the point, or zero less the zeros after it. -/
def magnitude (x : Ratio) : Int :=
  if x.den ≤ x.num then (Nat.toDigits 10 (x.num / x.den)).length
  else
    let n := (Nat.toDigits 10 (x.den / x.num)).length - 1
    if x.den ≤ x.num * Nat.pow 10 n then 1 - (n : Int) else -(n : Int)

end Ratio

/-- An interval of rationals, with both ends or with neither. -/
structure Interval where
  lower : Ratio
  upper : Ratio
  closed : Bool

/-- Whether a rational lies in an interval. -/
def Interval.contains (i : Interval) (x : Ratio) : Bool :=
  if i.closed then i.lower.le x && x.le i.upper else i.lower.lt x && x.lt i.upper

/-- The numbers that round to m · 2^q, where `narrow` says that the double below is only half a
step away. -/
def roundingInterval (m : Nat) (q : Int) (narrow : Bool) : Interval where
  lower := if narrow then .scaled (4 * m - 1) 2 (q - 2) else .scaled (2 * m - 1) 2 (q - 1)
  upper := .scaled (2 * m + 1) 2 (q - 1)
  closed := m % 2 = 0

/-- The grid points next to a rational that lie in an interval, the nearest alone if both do; an
exact tie goes to the even one. -/
def onGrid? (x : Ratio) (i : Interval) (e : Int) : Option Nat :=
  let y := x.mul (.scaled 1 10 (-e))
  let below := y.num / y.den
  let above := below + 1
  match i.contains (.scaled below 10 e), i.contains (.scaled above 10 e) with
  | true, true =>
    let twice := 2 * (y.num % y.den)
    if twice < y.den then some below
    else if y.den < twice then some above
    else if below % 2 = 0 then some below else some above
  | true, false => some below
  | false, true => some above
  | false, false => none

/-- The first grid with a hit, from some number of digits on. -/
def search (x : Ratio) (i : Interval) (magnitude : Int) : Nat → Nat → Nat × Int
  | 0, _ => (0, 0)
  | grids + 1, n =>
    let e := magnitude - n
    match onGrid? x i e with
    | some digits => (digits, e)
    | none => search x i magnitude grids (n + 1)

/-- Takes zeros off the end of the digits. -/
def trim (negative : Bool) : Nat → Nat → Int → Decimal
  | 0, digits, e => ⟨negative, digits, e⟩
  | steps + 1, digits, e =>
    if digits % 10 = 0 && digits != 0 then trim negative steps (digits / 10) (e + 1)
    else ⟨negative, digits, e⟩

/-- The shortest decimal that a finite double, given by its bits, is nearest to. -/
def shortest (bits : UInt64) : Decimal :=
  let n := bits.toNat
  let negative := Nat.pow 2 63 ≤ n
  let fraction := n % Nat.pow 2 52
  let biased := n / Nat.pow 2 52 % Nat.pow 2 11
  if biased = 0 && fraction = 0 then ⟨negative, 0, 0⟩
  else
    let m := if biased = 0 then fraction else Nat.pow 2 52 + fraction
    let q : Int := (if biased = 0 then 1 else biased : Nat) - 1075
    let x := Ratio.scaled m 2 q
    let i := roundingInterval m q (fraction = 0 && 1 < biased)
    let (digits, e) := search x i x.magnitude 18 1
    trim negative 18 digits e

/-- The decimal as a message shows it: positional from 0.00001 on and below 10^16, and otherwise
with one digit before the point and an exponent, which has a sign either way. -/
def text (d : Decimal) : String :=
  let sign := if d.negative then "-" else ""
  let digits := Nat.toDigits 10 d.digits
  let point := digits.length + d.exponent
  let unsigned :=
    if d.digits = 0 then ['0', '.', '0']
    else if 0 ≤ d.exponent && point ≤ 16 then
      digits ++ List.replicate d.exponent.toNat '0' ++ ['.', '0']
    else if 0 < point && point ≤ 16 then
      digits.take point.toNat ++ '.' :: digits.drop point.toNat
    else if -5 < point && point ≤ 0 then
      ['0', '.'] ++ List.replicate (-point).toNat '0' ++ digits
    else
      let exponent :=
        ['e', if 0 < point then '+' else '-'] ++ Nat.toDigits 10 (point - 1).natAbs
      match digits with
      | [digit] => digit :: exponent
      | digit :: rest => digit :: '.' :: rest ++ exponent
      | [] => []
  sign ++ String.ofList unsigned

end Decimal

end Inflection
