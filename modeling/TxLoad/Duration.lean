import TxLoad.Word

/-! # Spans of time

A span is a whole number of nanoseconds. Its text uses the largest unit of which the span holds at
least one, followed by as many decimal places as needed.
-/

namespace TxLoad

open scoped NatPower

structure Duration where
  nanos : Nat
  deriving DecidableEq, Repr, Inhabited

namespace Duration

def zero : Duration := ⟨0⟩

def ofSecs (n : Nat) : Duration := ⟨n * 1000000000⟩

def ofMillis (n : Nat) : Duration := ⟨n * 1000000⟩

def secs (d : Duration) : Nat := d.nanos / 1000000000

def subsecNanos (d : Duration) : Nat := d.nanos % 1000000000

def millis (d : Duration) : Nat := d.nanos / 1000000

/-- Both spans, one after the other. -/
def plus (d e : Duration) : Duration := ⟨d.nanos + e.nanos⟩

def longer (d e : Duration) : Duration := ⟨max d.nanos e.nanos⟩

def shorter (d e : Duration) : Duration := ⟨min d.nanos e.nanos⟩

/-- What is left of `d` after `e`, nothing if `e` is longer. -/
def monus (d e : Duration) : Duration := ⟨d.nanos - e.nanos⟩

/-- The digits of `n` in `width` places, without the zeros at the end. -/
def fractionDigits (width n : Nat) : List Char :=
  let digits := Nat.toDigits 10 n
  (List.replicate (width - digits.length) '0' ++ digits).reverse.dropWhile (· == '0') |>.reverse

/-- `n` divided by ten to the power `width`, with the decimal places that are not zero. -/
def decimalText (width n : Nat) : String :=
  let whole := toString (n / 10 ^ width)
  match if n % 10 ^ width = 0 then [] else fractionDigits width (n % 10 ^ width) with
  | [] => whole
  | digits => whole ++ "." ++ String.ofList digits

def text (d : Duration) : String :=
  if 1000000000 ≤ d.nanos then decimalText 9 d.nanos ++ "s"
  else if 1000000 ≤ d.nanos then decimalText 6 d.nanos ++ "ms"
  else if 1000 ≤ d.nanos then decimalText 3 d.nanos ++ "µs"
  else toString d.nanos ++ "ns"

end Duration

end TxLoad
