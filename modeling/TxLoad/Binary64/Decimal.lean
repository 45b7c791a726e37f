import TxLoad.Binary64.Basic

/-! # Decimal text of floating-point numbers

The text has the fewest digits that still round to the number, and of these the ones nearest to it;
of two that are equally near the larger is taken. It never has an exponent, and a whole number has
no point.
-/

namespace TxLoad.Binary64

open scoped NatPower

/-- A decimal number, `digits * 10 ^ exponent`. -/
structure Decimal where
  digits : Nat
  exponent : Int
  deriving DecidableEq, Repr, Inhabited

/-- No unit has so many zeros between the point and its first digit. -/
def headroom : Nat := 330

/-- The exponent of the first digit of a positive number of units. The factor is so large that even
one unit is above one. -/
def leadingExponent (units : Nat) : Int :=
  (Nat.toDigits 10 (units * 10 ^ headroom / unitsPerOne)).length - (headroom + 1)

/-- The numbers that round to a magnitude, in quarters of a unit: from `center - below` to
`center + above`, with both ends if the magnitude is even. The gap below a power of two is half as
wide as the gap above it. -/
structure Interval where
  center : Nat
  below : Nat
  above : Nat
  closed : Bool

def interval (magnitude : Nat) : Interval :=
  let gap := 2 ^ shift magnitude
  let isPower := magnitude % 2 ^ fractionBits = 0 && 2 ^ (fractionBits + 1) ≤ magnitude
  { center := 4 * (significand magnitude * gap)
    below := if isPower then gap else 2 * gap
    above := 2 * gap
    closed := magnitude % 2 = 0 }

/-- A number of quarters over a common denominator, `scale`, lies in the interval. -/
def Interval.contains (i : Interval) (scale quarters : Nat) : Bool :=
  let low := (i.center - i.below) * scale
  let high := (i.center + i.above) * scale
  if i.closed then low ≤ quarters && quarters ≤ high else low < quarters && quarters < high

/-- The decimal number with the given last exponent that lies in the interval and is nearest to its
center, if there is one. -/
def nearestOnGrid? (i : Interval) (exponent : Int) : Option Decimal :=
  let step := 4 * unitsPerOne * 10 ^ exponent.toNat
  let scale := 10 ^ (-exponent).toNat
  let center := i.center * scale
  let low := center / step
  let candidates := [low, low + 1].filter fun digits =>
    digits ≠ 0 && i.contains scale (digits * step)
  match candidates with
  | [] => none
  | [digits] => some ⟨digits, exponent⟩
  | _ => some ⟨if 2 * (center % step) < step then low else low + 1, exponent⟩

/-- The first grid with a hit, from the coarsest of the exponents on. -/
def firstOnGrid (i : Interval) (exponent : Int) : Nat → Decimal
  | 0 => (nearestOnGrid? i exponent).getD ⟨0, 0⟩
  | finer + 1 =>
    match nearestOnGrid? i exponent with
    | some decimal => decimal
    | none => firstOnGrid i (exponent - 1) finer

/-- The shortest decimal number that rounds to a finite positive magnitude. It may be the power of
ten above the number, so the search begins one place before the first digit. -/
def shortest (magnitude : Nat) : Decimal :=
  let i := interval magnitude
  firstOnGrid i (leadingExponent (i.center / 4) + 1) 18

/-- The decimal number written out. -/
def Decimal.text (d : Decimal) : String :=
  let digits := Nat.toDigits 10 d.digits
  match d.exponent with
  | .ofNat e => String.ofList (digits ++ List.replicate e '0')
  | .negSucc e =>
    let places := e + 1
    let padded := List.replicate (places + 1 - digits.length) '0' ++ digits
    let whole := padded.length - places
    String.ofList (padded.take whole ++ '.' :: padded.drop whole)

def text (x : Binary64) : String :=
  let mark := if x.negative then "-" else ""
  if x.isNaN then "NaN"
  else if x.isInfinite then mark ++ "inf"
  else if x.magnitude = 0 then mark ++ "0"
  else mark ++ (shortest x.magnitude).text

end TxLoad.Binary64
