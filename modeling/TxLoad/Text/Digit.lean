/-! # Hexadecimal digits

Digits are written in small letters and read in letters of either case.
-/

namespace TxLoad.Text

def hexDigit (n : Nat) : Char := "0123456789abcdef".toList.getD n '0'

def hexDigit? (c : Char) : Option Nat :=
  if c.isDigit then some (c.toNat - '0'.toNat)
  else if 'a' ≤ c && c ≤ 'f' then some (c.toNat - 'a'.toNat + 10)
  else if 'A' ≤ c && c ≤ 'F' then some (c.toNat - 'A'.toNat + 10)
  else none

theorem hexDigit?_hexDigit {n : Nat} (h : n < 16) : hexDigit? (hexDigit n) = some n := by
  have hAll : ∀ m : Fin 16, hexDigit? (hexDigit m) = some m.val := by decide
  exact hAll ⟨n, h⟩

end TxLoad.Text
