import TxLoad.Binary64.Reader
import TxLoad.Json.Printer

/-! # Values that can be kept

A document may hold more than is asked for. What is kept of it must be readable: texts without half
of a surrogate pair, numbers that are not too large, and no deeper nesting than there is room for.
-/

namespace TxLoad.Json

def Numeral.isFinite (n : Numeral) : Bool :=
  ((Binary64.read? (String.ofList (writtenNumeral n))).map Binary64.isFinite).getD false

mutual

/-- The value can be kept where `room` more arrays and objects may stand inside each other. -/
def isProper (room : Nat) : Json → Bool
  | .null | .bool _ => true
  | .number numeral => numeral.isFinite
  | .string pieces => (textOf? pieces).isSome
  | .array items => room ≠ 0 && areProper (room - 1) items
  | .object members => room ≠ 0 && areMembersProper (room - 1) members

def areProper (room : Nat) : List Json → Bool
  | [] => true
  | item :: rest => isProper room item && areProper room rest

def areMembersProper (room : Nat) : List (List Piece × Json) → Bool
  | [] => true
  | (name, value) :: rest =>
    (textOf? name).isSome && isProper room value && areMembersProper room rest

end

end TxLoad.Json
