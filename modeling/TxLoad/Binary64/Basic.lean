import TxLoad.Word

/-! # Floating-point numbers of 64 bits

A number is a sign and a magnitude of 63 bits. Every finite number is a whole multiple of the unit,
`2 ^ -1074`, so finite numbers are computed with as integers, and a quotient of integers is rounded
to the nearest number, a tie to the one with an even magnitude.
-/

namespace TxLoad

open scoped NatPower

structure Binary64 where
  bits : BitVec 64
  deriving DecidableEq, Repr, Inhabited

namespace Binary64

/-- How many bits a number has besides its sign. -/
def magnitudeBits : Nat := 63

/-- How many of these bits, the last ones, belong to the significand. -/
def fractionBits : Nat := 52

def unitExponent : Nat := 1074

/-- How many units make one. -/
def unitsPerOne : Nat := 2 ^ unitExponent

/-- The magnitude of infinity; every larger magnitude is that of no number. -/
def infiniteMagnitude : Nat := 0x7FF0000000000000

def ofMagnitude (negative : Bool) (magnitude : Nat) : Binary64 :=
  ⟨BitVec.ofNat 64 (magnitude + if negative then 2 ^ magnitudeBits else 0)⟩

def negative (x : Binary64) : Bool := x.bits.msb

def magnitude (x : Binary64) : Nat := x.bits.toNat % 2 ^ magnitudeBits

def isNaN (x : Binary64) : Bool := infiniteMagnitude < x.magnitude

def isInfinite (x : Binary64) : Bool := x.magnitude = infiniteMagnitude

def isFinite (x : Binary64) : Bool := x.magnitude < infiniteMagnitude

def nan : Binary64 := ofMagnitude false 0x7FF8000000000000

def infinity (negative : Bool) : Binary64 := ofMagnitude negative infiniteMagnitude

def zero : Binary64 := ofMagnitude false 0

/-- By how many bits the significand of a finite magnitude is shifted. -/
def shift (magnitude : Nat) : Nat := magnitude / 2 ^ fractionBits - 1

/-- The significand of a finite magnitude. Magnitudes below `2 ^ 53` are their own significand. -/
def significand (magnitude : Nat) : Nat :=
  if magnitude < 2 ^ fractionBits then magnitude
  else 2 ^ fractionBits + magnitude % 2 ^ fractionBits

/-- The absolute value of a finite number in units. -/
def units (x : Binary64) : Nat := significand x.magnitude * 2 ^ shift x.magnitude

/-- The value of a finite number in units. -/
def value (x : Binary64) : Int := if x.negative then -x.units else x.units

/-! ## Rounding -/

/-- The integer nearest to `n / d`, a tie to the even one. -/
def roundQuotient (n d : Nat) : Nat :=
  let low := n / d
  let twice := 2 * (n % d)
  if twice < d || (twice = d && low % 2 = 0) then low else low + 1

/-- The magnitude nearest to `n / d` units. -/
def nearestMagnitude (n d : Nat) : Nat :=
  let shift := Nat.log2 (n / d) - fractionBits
  min (shift * 2 ^ fractionBits + roundQuotient n (d * 2 ^ shift)) infiniteMagnitude

/-- The number nearest to `n / d` units. -/
def ofUnits (negative : Bool) (n d : Nat) : Binary64 := ofMagnitude negative (nearestMagnitude n d)

/-- The number nearest to the quotient of two natural numbers. -/
def ofRatio (negative : Bool) (n d : Nat) : Binary64 := ofUnits negative (n * unitsPerOne) d

def ofInt (n : Int) : Binary64 := ofRatio (n < 0) n.natAbs 1

/-! ## Arithmetic -/

/-- The sum, rounded once. A sum of zero is negative only if both numbers are. -/
def plus (x y : Binary64) : Binary64 :=
  if x.isNaN || y.isNaN then nan
  else if x.isInfinite then if y.isInfinite && x.negative != y.negative then nan else x
  else if y.isInfinite then y
  else
    let sum := x.value + y.value
    if sum = 0 then ofMagnitude (x.negative && y.negative) 0 else ofUnits (sum < 0) sum.natAbs 1

/-- The order of numbers; no number is below or above one that is no number. -/
def atMost (x y : Binary64) : Bool :=
  if x.isNaN || y.isNaN then false
  else if x.isInfinite then x.negative || (y.isInfinite && !y.negative)
  else if y.isInfinite then !y.negative
  else x.value ≤ y.value

/-- Below zero; a negative zero is not. -/
def isBelowZero (x : Binary64) : Bool := !x.isNaN && x.negative && x.magnitude ≠ 0

end Binary64

end TxLoad
