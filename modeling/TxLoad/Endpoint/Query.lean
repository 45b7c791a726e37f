import TxLoad.Endpoint.Http
import TxLoad.Endpoint.Shape
import TxLoad.Json.Reader

/-! # Queries to an execution node

A query names a method and its parameters and tells the shape of the result. The node's reply is an
object with the version of the protocol, an id, and either a result or an error; it may have no
other members. Nothing is made of the id and of the status with which the reply is sent.
-/

namespace TxLoad.Endpoint

structure Query where
  method : String
  params : Json
  shape : Shape
  deriving Inhabited

/-- What came of contacting a node. -/
inductive Contact
  | result (value : Json)
  /-- The node answered that it has no result. -/
  | refusal (message : String)
  /-- There was no answer, or none that can be read. -/
  | failure (cause : String)
  /-- Nothing can be sent to the node; this is known without waiting. -/
  | unsent (cause : String)
  deriving Inhabited

/-- What is said of a reply that cannot be read. -/
def unreadable : String := "Deserialization Error"

/-- How many arrays and objects may stand inside each other in what accompanies an error. -/
def errorDataRoom : Nat := 125

/-- The message of an error: a code, a message and perhaps some data. -/
def errorMessage? (code message : Json) (data : Option Json) : Option String := do
  let code ← code.int?
  let message ← message.text?
  if fitsSigned 64 code && data.all (Json.isProper errorDataRoom) then
    return message
  else none

/-- The message of an error object, or of the list of its three members. -/
def readError? : Json → Option String
  | .array [code, message, data] => errorMessage? code message (some data)
  | .object members =>
    if Json.namesReadable members then
      match Json.occurrence "code" members, Json.occurrence "message" members,
        Json.occurrence "data" members with
      | .once code, .once message, .absent => errorMessage? code message none
      | .once code, .once message, .once data => errorMessage? code message (some data)
      | _, _, _ => none
    else none
  | _ => none

/-- The members of a reply by their names, which must be written without escapes. -/
def plainMembers? (members : List (List Json.Piece × Json)) : Option (List (String × Json)) :=
  members.mapM fun (name, value) => (Json.literalText? name).map (·, value)

def isVersion : Json → Bool
  | .string pieces => Json.literalText? pieces = some "2.0"
  | _ => false

/-- The result or the error of a reply. The members are known by their names, each occurs once, and
there is no other. -/
def replyOf? (members : List (String × Json)) : Option (Json ⊕ String) := do
  let names := members.map Prod.fst
  if names.length ≠ 3 || names.eraseDups.length ≠ 3 then none
  let version ← members.lookup "jsonrpc"
  let _ ← (← members.lookup "id").below? (wordCount 64)
  if !isVersion version then none
  match members.lookup "result", members.lookup "error" with
  | some result, none => return .inl result
  | none, some error => return .inr (← readError? error)
  | _, _ => none

def readReply? (body : String) : Option (Json ⊕ String) := do
  match ← Json.read? body with
  | .object members => replyOf? (← plainMembers? members)
  | _ => none

namespace Contact

def ofReply (shape : Shape) : HttpReply → Contact
  | .dropped => .failure HttpReply.unanswered
  | .response status body =>
    match readReply? (HttpReply.bodyOf status body) with
    | none => .failure unreadable
    | some (.inr message) => .refusal message
    | some (.inl value) => if shape.accepts value then .result value else .failure unreadable

end Contact

/-! ## The queries of this program -/

namespace Query

def chainId : Query := ⟨"eth_chainId", .null, .wide⟩

def estimateGas (call : CallObject) : Query :=
  ⟨"eth_estimateGas", .array [callObject call], .wide⟩

def latestBlock : Query :=
  ⟨"eth_getBlockByNumber", .array [.ofText "latest", .bool false], .optional .block⟩

def priorityFee : Query := ⟨"eth_maxPriorityFeePerGas", .null, .wide⟩

def pendingCount (account : Address) : Query :=
  ⟨"eth_getTransactionCount", .array [.ofText account.text, .ofText "pending"], .wide⟩

def submit (payload : Bytes) : Query := ⟨"eth_sendRawTransaction", .array [blob payload], .hash⟩

def transaction (hash : Hash) : Query :=
  ⟨"eth_getTransactionByHash", .array [.ofText hash.text], .optional .transaction⟩

def receipt (hash : Hash) : Query :=
  ⟨"eth_getTransactionReceipt", .array [.ofText hash.text], .optional .receipt⟩

def callAt (call : CallObject) (block : Word64) : Query :=
  ⟨"eth_call", .array [callObject call, word block], .blob⟩

end Query

/-! ## What accepted results say -/

def wideOf (value : Json) : Word256 := BitVec.ofNat 256 ((quantity? 64 value).getD 0)

/-- The low 64 bits of a number. -/
def lowWordOf (value : Json) : Word64 := BitVec.ofNat 64 (wideOf value).toNat

/-- The member of an object, if it is there and no null. -/
def memberOf? (name : String) : Json → Option Json
  | .object members =>
    match Json.occurrence name members with
    | .once .null => none
    | .once value => some value
    | _ => none
  | _ => none

def wideMember? (name : String) (value : Json) : Option Word256 := (memberOf? name value).map wideOf

def narrowMember? (name : String) (value : Json) : Option Word64 :=
  (memberOf? name value).map fun member => BitVec.ofNat 64 ((quantity? 16 member).getD 0)

/-- The base fee of a block, unless there is no block. -/
def baseFeeOf? : Json → Option (Option Word256)
  | .null => none
  | block => some (wideMember? "baseFeePerGas" block)

def transactionOf? : Json → Option KnownTransaction
  | .null => none
  | value => some {
      sender := ((memberOf? "from" value).bind addressOf?).getD ⟨0⟩
      recipient := (memberOf? "to" value).bind addressOf?
      value := (wideMember? "value" value).getD 0
      gas := (wideMember? "gas" value).getD 0
      gasPrice := wideMember? "gasPrice" value
      input := ((memberOf? "input" value).bind blob?).getD [] }

def receiptOf? : Json → Option Receipt
  | .null => none
  | value => some ⟨narrowMember? "status" value, narrowMember? "blockNumber" value⟩

end TxLoad.Endpoint
