import TxLoad.Binary64.Decimal
import TxLoad.Json.Printer
import TxLoad.Telemetry.Notice

/-! # Notices as JSON

A line of the log is an object with the level, the fields, of which the message is the first, and
the part of the program.
-/

namespace TxLoad.Telemetry

/-- A number with at least one digit after the point. Only a finite number can be written. -/
def realJson (x : Binary64) : Json :=
  if x.isFinite then
    let digits := (if x.negative then x.text.drop 1 else x.text.drop 0).toString.toList
    let fraction := (digits.dropWhile (· ≠ '.')).drop 1
    .number ⟨x.negative, digits.takeWhile (· ≠ '.'), if fraction.isEmpty then ['0'] else fraction,
      none⟩
  else .null

def detailJson : Detail → Json
  | .text text => .ofText text
  | .number n => .ofNat n
  | .real x => realJson x
  | .flag value => .bool value

def fieldsJson (n : Notice) : Json :=
  .ofMembers (("message", .ofText n.message) :: n.fields.map fun (name, d) => (name, detailJson d))

def recordJson (n : Notice) : Json :=
  .ofMembers [("level", .ofText n.level.name), ("fields", fieldsJson n),
    ("target", .ofText n.target)]

end TxLoad.Telemetry
