import TxLoad.Word

/-! # Unsigned decimal numerals

Ten ASCII digits, leading zeros allowed, and at most one plus sign in front.
-/

namespace TxLoad.Text

/-- The value of a run of ASCII digits; nothing if there is no digit or another character. -/
def digitsValue? (digits : List Char) : Option Nat :=
  if digits.isEmpty || !digits.all Char.isDigit then none
  else some (digits.foldl (fun n c => n * 10 + (c.toNat - '0'.toNat)) 0)

/-- The number that the text denotes, if it is below `bound`. -/
def unsigned? (bound : Nat) (s : String) : Option Nat :=
  let digits := match s.toList with
    | '+' :: rest => rest
    | all => all
  (digitsValue? digits).filter (· < bound)

/-- The word that the text denotes, if it fits `width` bits. -/
def word? (width : Nat) (s : String) : Option (BitVec width) :=
  (unsigned? (wordCount width) s).map (BitVec.ofNat width)

end TxLoad.Text
