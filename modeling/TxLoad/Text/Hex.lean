import TxLoad.Bytes
import TxLoad.Text.Quoted

/-! # Reading hexadecimal text

Keys are read strictly: an even number of digits and nothing else. Hashes and addresses have a fixed
number of digits between which spacing may stand; the digits are counted as they come, so a wrong
character after the last digit that is needed is only a wrong length. The answers of a node are read
leniently: spacing is skipped and an odd digit at the front stands for a byte of its own.
-/

namespace TxLoad.Hex

def isSpacing (c : Char) : Bool := c = ' ' || c = '\r' || c = '\n' || c = '\t'

/-- The rest of the text after one occurrence of `mark` at its front, or the whole text. -/
def dropMark (mark text : List Char) : List Char :=
  if mark.isPrefixOf text then text.drop mark.length else text

/-! ## Strict reading -/

/-- Why a text is not an even run of digits. The bytes of the text are what is read. -/
inductive StrictError
  | oddLength
  | badByte (byte : UInt8) (position : Nat)
  deriving DecidableEq, Repr

def StrictError.message : StrictError → String
  | .oddLength => "odd number of digits"
  | .badByte byte position =>
    "invalid character " ++ Text.quotedSingle (Char.ofNat byte.toNat) ++ " at position "
      ++ toString position

/-- The value of a byte that is a digit. -/
def byteDigit? (byte : UInt8) : Option Nat := Text.hexDigit? (Char.ofNat byte.toNat)

/-- Reads the bytes two digits at a time; `position` counts the bytes before them. -/
def strictPairs : Nat → Bytes → Except StrictError Bytes
  | position, hi :: lo :: rest =>
    match byteDigit? hi, byteDigit? lo with
    | some a, some b => (UInt8.ofNat (a * 16 + b) :: ·) <$> strictPairs (position + 2) rest
    | none, _ => .error (.badByte hi position)
    | some _, none => .error (.badByte lo (position + 1))
  | _, _ => .ok []

def readStrict (text : Bytes) : Except StrictError Bytes :=
  if text.length % 2 = 1 then .error .oddLength else strictPairs 0 text

/-! ## Reading a fixed number of digits -/

inductive FixedError
  | badCharacter (c : Char) (position : Nat)
  | badLength
  deriving DecidableEq, Repr

def FixedError.message : FixedError → String
  | .badCharacter c position =>
    "Invalid character '" ++ String.singleton c ++ "' at position " ++ toString position
  | .badLength => "Invalid input length"

/-- Reads `need` more digits onto `n`; `position` counts the bytes before the text. -/
def fixedDigits : Nat → Nat → Nat → List Char → Except FixedError Nat
  | n, 0, _, text => if text.all isSpacing then .ok n else .error .badLength
  | _, _ + 1, _, [] => .error .badLength
  | n, need + 1, position, c :: rest =>
    match Text.hexDigit? c with
    | some d => fixedDigits (n * 16 + d) need (position + c.utf8Size) rest
    | none =>
      if isSpacing c then fixedDigits n (need + 1) (position + c.utf8Size) rest
      else .error (.badCharacter c position)

/-- A word of `width` bits in `width / 4` digits, with or without `0x`. -/
def readFixed (width : Nat) (text : String) : Except FixedError (BitVec width) :=
  BitVec.ofNat width <$> fixedDigits 0 (width / 4) 0 (dropMark ['0', 'x'] text.toList)

/-! ## Lenient reading -/

/-- The bytes of the pairs in a run of digits; a digit left over at the end is dropped. -/
def pairs : List Nat → Bytes
  | a :: b :: rest => UInt8.ofNat (a * 16 + b) :: pairs rest
  | _ => []

/-- The bytes of a text of digits and spacing. The parity of its whole length decides whether the
first digit stands alone. -/
def lenientBytes? (text : List Char) : Option Bytes :=
  if text.all fun c => (Text.hexDigit? c).isSome || isSpacing c then
    let digits := text.filterMap Text.hexDigit?
    some (pairs (if text.length % 2 = 1 then 0 :: digits else digits))
  else none

/-- The bytes of a text with an even number of digits, with or without `0x`. -/
def bytes? (text : String) : Option Bytes :=
  (readStrict (String.ofList (dropMark ['0', 'x'] text.toList)).toUTF8.toList).toOption

end TxLoad.Hex
