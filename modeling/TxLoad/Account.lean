import TxLoad.Crypto.Signature
import TxLoad.Text.Blank
import TxLoad.Text.Hex

/-! # The account that sends

An account is known by its secret key, which is written as 32 bytes in hexadecimal. Blanks around
the text are ignored, and so are the marks `0x` in front of it.
-/

namespace TxLoad

/-- Why a text is not a key. -/
inductive KeyError
  | malformed (error : Hex.StrictError)
  | badLength
  | outOfGroup
  deriving DecidableEq, Repr

def KeyError.message : KeyError → String
  | .malformed error => "Invalid private key: " ++ error.message
  | .badLength => "Invalid private key: invalid string length"
  | .outOfGroup => "Invalid private key: signature error"

structure Account where
  key : Crypto.Scalar

namespace Account

def address (a : Account) : Address := a.key.account

/-- The text without any number of marks at its front. -/
def dropMarks : List Char → List Char
  | '0' :: 'x' :: rest => dropMarks rest
  | text => text

/-- Any number of marks `0x`, then at most one of either case, then at most one more `0x`. -/
def keyDigits (text : String) : String :=
  let digits := dropMarks (Text.trim text).toList
  let digits := if digits.take 2 = ['0', 'X'] then digits.drop 2 else digits
  String.ofList (Hex.dropMark ['0', 'x'] digits)

def ofText (text : String) : Except KeyError Account :=
  match Hex.readStrict (keyDigits text).toUTF8.toList with
  | .error error => .error (.malformed error)
  | .ok bytes =>
    if bytes.length ≠ 32 then .error .badLength
    else
      match Crypto.Scalar.ofNat? (Bytes.toNat bytes) with
      | none => .error .outOfGroup
      | some key => .ok ⟨key⟩

end Account

end TxLoad
