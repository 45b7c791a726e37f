import TxLoad.Json.Basic
import TxLoad.Run.Network
import TxLoad.Text.Hex

/-! # Numbers and bytes in the messages of a node

Numbers are written in hexadecimal without leading zeros. In a reply the mark `0x` may be missing
and spacing may stand between the digits; how many bytes a text holds is told by its length,
spacing included.
-/

namespace TxLoad.Endpoint

/-- The text without the mark in front. -/
def unmarked (text : String) : List Char := Hex.dropMark ['0', 'x'] text.toList

/-- A number of one to `digits` digits. -/
def quantity? (digits : Nat) (value : Json) : Option Nat := do
  let text := unmarked (← value.text?)
  let length := (String.ofList text).utf8ByteSize
  if length = 0 || digits < length then none
  else Bytes.toNat <$> Hex.lenientBytes? text

/-- A text of exactly `size` bytes. Spacing makes the text shorter, and zeros fill it up. -/
def fixedBytes? (size : Nat) (value : Json) : Option Bytes := do
  let text := unmarked (← value.text?)
  if (String.ofList text).utf8ByteSize ≠ 2 * size then none
  else
    let bytes ← Hex.lenientBytes? text
    return bytes ++ List.replicate (size - bytes.length) 0x00

/-- A text of any number of bytes. -/
def blob? (value : Json) : Option Bytes := do Hex.bytes? (← value.text?)

def addressOf? (value : Json) : Option Address :=
  (fixedBytes? 20 value).map fun bytes => ⟨BitVec.ofNat 160 (Bytes.toNat bytes)⟩

def hashOf? (value : Json) : Option Hash :=
  (fixedBytes? 32 value).map fun bytes => ⟨BitVec.ofNat 256 (Bytes.toNat bytes)⟩

/-! ## Requests -/

def quantity (n : Nat) : Json := .ofText (hexQuantity n)

def word {width : Nat} (w : BitVec width) : Json := quantity w.toNat

def blob (bytes : Bytes) : Json := .ofText bytes.toHex

def accessEntry (e : AccessEntry) : Json :=
  .ofMembers [("address", .ofText e.address.text),
    ("storageKeys", .array (e.storageKeys.map fun key => .ofText key.text))]

/-- A member for a field that is set. -/
def setMember {α : Type} (name : String) (value : α → Json) (field : Option α) :
    List (String × Json) :=
  field.toList.map fun a => (name, value a)

/-- A transaction as the parameter of a call: the fields that are set. -/
def callObject (c : CallObject) : Json :=
  let r := c.request
  let shared := setMember "from" (fun a => .ofText a.text) r.sender
    ++ setMember "to" (fun a => .ofText a.text) r.recipient ++ setMember "gas" word r.gasLimit
    ++ setMember "value" word r.value ++ setMember "data" blob r.data
    ++ setMember "nonce" word r.nonce
  if c.dynamicFee then
    .ofMembers (("type", .ofText "0x02") :: shared
      ++ [("accessList", .array (r.accessList.map accessEntry))]
      ++ setMember "maxPriorityFeePerGas" word r.priorityFee
      ++ setMember "maxFeePerGas" word r.maxFee ++ setMember "chainId" word r.chainId)
  else .ofMembers (("type", .ofText "0x00") :: shared ++ setMember "gasPrice" word c.gasPrice)

end TxLoad.Endpoint
