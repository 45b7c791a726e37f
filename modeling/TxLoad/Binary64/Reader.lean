import TxLoad.Binary64.Basic
import TxLoad.Text.Numeral

/-! # Reading floating-point numbers

A sign, digits with at most one point among or around them, and an exponent; or one of the names of
infinity and of what is no number, in letters of either case. The number is rounded once, from its
exact value.
-/

namespace TxLoad.Binary64

open scoped NatPower

/-- Past these exponents every number is zero or infinite, however many of its digits are known. -/
def exponentLimit : Nat := 20000

/-- The number with these digits, of which `places` stand behind the point, times a power of ten. -/
def ofDigits (negative : Bool) (digits : List Char) (places : Nat) (exponent : Int) : Binary64 :=
  match Text.digitsValue? digits with
  | none | some 0 => ofMagnitude negative 0
  | some n =>
    let exponent := exponent - places
    if exponent > exponentLimit then infinity negative
    else if exponent < -(exponentLimit + digits.length : Int) then ofMagnitude negative 0
    else ofRatio negative (n * 10 ^ exponent.toNat) (10 ^ (-exponent).toNat)

def readExponent? : List Char → Option Int
  | '-' :: digits => (Text.digitsValue? digits).map fun n => -(n : Int)
  | '+' :: digits => (Text.digitsValue? digits).map fun n => (n : Int)
  | digits => (Text.digitsValue? digits).map fun n => (n : Int)

/-- The digits before and after the point, of which there must be one at least, and the rest. -/
def readMantissa? (text : List Char) : Option (List Char × List Char × List Char) :=
  let whole := text.takeWhile Char.isDigit
  let (fraction, rest) := match text.dropWhile Char.isDigit with
    | '.' :: rest => (rest.takeWhile Char.isDigit, rest.dropWhile Char.isDigit)
    | rest => ([], rest)
  if whole.isEmpty && fraction.isEmpty then none else some (whole, fraction, rest)

def readUnsigned? (negative : Bool) (text : List Char) : Option Binary64 :=
  let name := text.map Char.toLower
  if name = "inf".toList || name = "infinity".toList then some (infinity negative)
  else if name = "nan".toList then some (if negative then ofMagnitude true nan.magnitude else nan)
  else do
    let (whole, fraction, rest) ← readMantissa? text
    let digits := whole ++ fraction
    match rest with
    | [] => return ofDigits negative digits fraction.length 0
    | mark :: rest =>
      if mark = 'e' || mark = 'E' then
        return ofDigits negative digits fraction.length (← readExponent? rest)
      else none

def read? (text : String) : Option Binary64 :=
  match text.toList with
  | '-' :: rest => readUnsigned? true rest
  | '+' :: rest => readUnsigned? false rest
  | rest => readUnsigned? false rest

end TxLoad.Binary64
