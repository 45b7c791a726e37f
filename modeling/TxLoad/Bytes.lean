import TxLoad.Text.Digit
import TxLoad.Word

/-! # Byte strings

Numbers are written big-endian, either with the fewest bytes or in a fixed width. Hexadecimal text
is lower case, two digits a byte, behind `0x`.
-/

namespace TxLoad

open scoped NatPower

abbrev Bytes := List UInt8

namespace Bytes

/-- The number that the bytes spell, the most significant first. -/
def toNat (bytes : Bytes) : Nat := bytes.foldl (fun n byte => n * 256 + byte.toNat) 0

/-- The shortest spelling of a number: no byte at all for zero, no leading zero byte. -/
def ofNat (n : Nat) : Bytes :=
  if n = 0 then [] else ofNat (n / 256) ++ [UInt8.ofNat (n % 256)]
termination_by n
decreasing_by omega

/-- The last `width` bytes of the number. -/
def ofNatPadded (width n : Nat) : Bytes :=
  (List.range width).reverse.map fun i => UInt8.ofNat (n / 256 ^ i % 256)

def hexDigits (bytes : Bytes) : String :=
  String.ofList (bytes.flatMap fun byte =>
    [Text.hexDigit (byte.toNat / 16), Text.hexDigit (byte.toNat % 16)])

def toHex (bytes : Bytes) : String := "0x" ++ hexDigits bytes

@[simp] theorem length_ofNatPadded (width n : Nat) : (ofNatPadded width n).length = width := by
  simp [ofNatPadded]

end Bytes

/-- A number in hexadecimal without leading zeros, `0x0` for zero. -/
def hexQuantity (n : Nat) : String := "0x" ++ String.ofList (Nat.toDigits 16 n)

/-- An account on the chain. -/
structure Address where
  value : BitVec 160
  deriving DecidableEq, Repr, Inhabited

/-- The digest that names a payload or a mined transaction. -/
structure Hash where
  value : Word256
  deriving DecidableEq, Repr, Inhabited

namespace Address

def bytes (a : Address) : Bytes := Bytes.ofNatPadded 20 a.value.toNat

def text (a : Address) : String := a.bytes.toHex

end Address

namespace Hash

def bytes (h : Hash) : Bytes := Bytes.ofNatPadded 32 h.value.toNat

def text (h : Hash) : String := h.bytes.toHex

end Hash

end TxLoad
