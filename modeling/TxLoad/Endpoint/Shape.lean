import TxLoad.Endpoint.Quantity
import TxLoad.Json.Proper

/-! # The shapes of a node's documents

A shape tells which values are accepted in the place of a document. A record has named fields, some
of which may be missing. An open record keeps the members that it does not know; a closed one
ignores them, and may also be given as the list of its fields.
-/

namespace TxLoad.Endpoint

inductive Shape
  | quantity (digits : Nat)
  | fixed (size : Nat)
  | blob
  | text
  | flag
  | optional (shape : Shape)
  | list (shape : Shape)
  | openRecord (fields : List (String × Bool × Shape))
  | closedRecord (fields : List (String × Bool × Shape))
  deriving Repr, Inhabited

/-- How many arrays and objects may stand inside each other in a member that is kept. -/
def memberRoom : Nat := 126

/-- The members that are not among the fields can be kept. -/
def restProper (names : List String) (members : List (List Json.Piece × Json)) : Bool :=
  members.all fun (name, value) =>
    match Json.textOf? name with
    | none => false
    | some text => names.contains (String.ofList text) || value.isProper memberRoom

mutual

def Shape.accepts : Shape → Json → Bool
  | .quantity digits, value => (quantity? digits value).isSome
  | .fixed size, value => (fixedBytes? size value).isSome
  | .blob, value => (blob? value).isSome
  | .text, value => value.text?.isSome
  | .flag, value => match value with
    | .bool _ => true
    | _ => false
  | .optional shape, value => match value with
    | .null => true
    | value => shape.accepts value
  | .list shape, value => match value with
    | .array items => items.all shape.accepts
    | _ => false
  | .openRecord fields, value => match value with
    | .object members => fieldsAccept fields members && restProper (fields.map Prod.fst) members
    | _ => false
  | .closedRecord fields, value => match value with
    | .object members => fieldsAccept fields members && Json.namesReadable members
    | .array items => itemsAccept fields items
    | _ => false

/-- Each field occurs at most once, with a value that it accepts, and is there if it must be. -/
def fieldsAccept : List (String × Bool × Shape) → List (List Json.Piece × Json) → Bool
  | [], _ => true
  | (name, required, shape) :: rest, members =>
    (match Json.occurrence name members with
      | .absent => !required
      | .once value => shape.accepts value
      | .repeated => false)
      && fieldsAccept rest members

/-- There is one item for each field, which accepts it. -/
def itemsAccept : List (String × Bool × Shape) → List Json → Bool
  | [], items => items.isEmpty
  | (_, _, shape) :: rest, items => match items with
    | [] => false
    | item :: items => shape.accepts item && itemsAccept rest items

end

/-! ## The documents -/

namespace Shape

def required (name : String) (shape : Shape) : String × Bool × Shape := (name, true, shape)

/-- A field that may be missing, but not be null. -/
def defaulted (name : String) (shape : Shape) : String × Bool × Shape := (name, false, shape)

/-- A field that may be missing or null. -/
def nullable (name : String) (shape : Shape) : String × Bool × Shape :=
  (name, false, .optional shape)

def wide : Shape := .quantity 64

def narrow : Shape := .quantity 16

def hash : Shape := .fixed 32

def address : Shape := .fixed 20

def bloom : Shape := .fixed 256

def withdrawal : Shape :=
  .closedRecord [required "index" narrow, required "validatorIndex" narrow,
    required "address" address, required "amount" wide]

/-- A block with the hashes of its transactions; every field may be missing. -/
def block : Shape :=
  .openRecord [nullable "hash" hash, defaulted "parentHash" hash, defaulted "sha3Uncles" hash,
    nullable "miner" address, defaulted "stateRoot" hash, defaulted "transactionsRoot" hash,
    defaulted "receiptsRoot" hash, nullable "number" narrow, defaulted "gasUsed" wide,
    defaulted "gasLimit" wide, defaulted "extraData" .blob, nullable "logsBloom" bloom,
    defaulted "timestamp" wide, defaulted "difficulty" wide, nullable "totalDifficulty" wide,
    nullable "sealFields" (.list .blob), defaulted "uncles" (.list hash),
    defaulted "transactions" (.list hash), nullable "size" wide, nullable "mixHash" hash,
    nullable "nonce" (.fixed 8), nullable "baseFeePerGas" wide, nullable "blobGasUsed" wide,
    nullable "excessBlobGas" wide, nullable "withdrawalsRoot" hash,
    nullable "withdrawals" (.list withdrawal), nullable "parentBeaconBlockRoot" hash]

def accessList : Shape :=
  .list (.closedRecord [required "address" address, required "storageKeys" (.list hash)])

def transaction : Shape :=
  .openRecord [required "hash" hash, required "nonce" wide, nullable "blockHash" hash,
    nullable "blockNumber" narrow, nullable "transactionIndex" narrow, defaulted "from" address,
    nullable "to" address, required "value" wide, nullable "gasPrice" wide, required "gas" wide,
    required "input" .blob, required "v" narrow, required "r" wide, required "s" wide,
    nullable "type" narrow, nullable "accessList" accessList,
    nullable "maxPriorityFeePerGas" wide, nullable "maxFeePerGas" wide, nullable "chainId" wide]

def log : Shape :=
  .closedRecord [required "address" address, required "topics" (.list hash),
    required "data" .blob, nullable "blockHash" hash, nullable "blockNumber" narrow,
    nullable "transactionHash" hash, nullable "transactionIndex" narrow, nullable "logIndex" wide,
    nullable "transactionLogIndex" wide, nullable "logType" .text, nullable "removed" .flag]

def receipt : Shape :=
  .openRecord [required "transactionHash" hash, required "transactionIndex" narrow,
    nullable "blockHash" hash, nullable "blockNumber" narrow, required "from" address,
    nullable "to" address, required "cumulativeGasUsed" wide, nullable "gasUsed" wide,
    nullable "contractAddress" address, required "logs" (.list log), nullable "status" narrow,
    nullable "root" hash, required "logsBloom" bloom, nullable "type" narrow,
    nullable "effectiveGasPrice" wide]

end Shape

end TxLoad.Endpoint
