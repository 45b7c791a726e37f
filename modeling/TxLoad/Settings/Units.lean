import TxLoad.Binary64.Decimal
import TxLoad.Duration
import TxLoad.Text.Numeral
import TxLoad.Word

/-! # Amounts and pauses

An amount is given in whole units of currency, of which each has `10 ^ 18` parts, and a pause in
seconds. Both are floating-point numbers. An amount is taken at its decimal text, and digits beyond
the smallest part are dropped; a pause is rounded to the nearest nanosecond.
-/

namespace TxLoad.Settings

open scoped NatPower

/-- The digits of a number before and after the point. -/
def splitPoint (digits : List Char) : List Char × List Char :=
  (digits.takeWhile (· ≠ '.'), (digits.dropWhile (· ≠ '.')).drop 1)

/-- How many decimal places the smallest part of a unit has. -/
def unitPlaces : Nat := 18

inductive AmountError
  | invalid (cause : String)
  | fault (fault : Fault)
  deriving DecidableEq, Repr

/-- The parts of a unit that the decimal text of an amount denotes. -/
def partsOfText (text : List Char) : Except AmountError Word256 :=
  match text with
  | '-' :: _ => .error (.invalid "number does not fit in 256-bit integer")
  | text =>
    let (whole, fraction) := splitPoint text
    let kept := fraction.take unitPlaces
    match Text.digitsValue? (whole ++ kept) with
    | none => .error (.invalid "invalid character")
    | some n =>
      if wordCount 256 ≤ n then .error (.invalid "the number is too large for the type")
      else
        let scale : Word256 := BitVec.ofNat 256 (10 ^ (unitPlaces - kept.length))
        (Word256.times (BitVec.ofNat 256 n) scale).mapError .fault

def partsOf (amount : Binary64) : Except AmountError Word256 := partsOfText amount.text.toList

/-- The span of a number of seconds, or why there is none. -/
def spanOf (seconds : Binary64) : Except String Duration :=
  if seconds.isBelowZero then
    .error "cannot convert float seconds to Duration: value is negative"
  else
    let nanos := Binary64.roundQuotient (seconds.units * 1000000000) Binary64.unitsPerOne
    if seconds.isFinite && nanos < wordCount 64 * 1000000000 then .ok ⟨nanos⟩
    else .error "cannot convert float seconds to Duration: value is either too big or NaN"

end TxLoad.Settings
