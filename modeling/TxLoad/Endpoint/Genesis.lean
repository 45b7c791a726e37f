import TxLoad.Endpoint.Http
import TxLoad.Failure
import TxLoad.Json.Reader

/-! # The genesis time of the consensus chain

A consensus node tells it as a number of seconds, written as an integer or as text, in an object
that may hold anything else besides. Each of the two objects may also be given as a list of its one
member.
-/

namespace TxLoad.Genesis

def path : String := "/eth/v1/beacon/genesis"

/-- The number of seconds of an integer literal or of the digits of a string. -/
def seconds? : Json → Option Word64
  | .string pieces => do Text.word? 64 (String.ofList (← Json.textOf? pieces))
  | value => (BitVec.ofNat 64 ·) <$> value.below? (wordCount 64)

/-- The value of the only member that counts: it must occur once. -/
def onlyMember? (name : String) : Json → Option Json
  | .array [value] => some value
  | .object members =>
    if Json.namesReadable members then
      match Json.occurrence name members with
      | .once value => some value
      | _ => none
    else none
  | _ => none

/-- The genesis time that a document tells. -/
def read? (body : String) : Option Word64 := do
  let document ← Json.read? body
  let data ← onlyMember? "data" document
  seconds? (← onlyMember? "genesis_time" data)

/-- What the body of a reply tells. -/
def ofBody (body : String) : Except GenesisError Word64 :=
  match read? body with
  | some time => .ok time
  | none => .error .malformed

/-- The text without the mark of its byte order. -/
def dropByteOrderMark (body : String) : String :=
  match body.toList with
  | '\ufeff' :: rest => String.ofList rest
  | _ => body

/-- The base without slashes at its end, and the path. -/
def urlText (base : String) : String :=
  String.ofList (base.toList.reverse.dropWhile (· = '/')).reverse ++ path

/-- What a reply to the request for `url` tells; `text` is the address as it was given. -/
def ofReply (text : String) (url : Url) : HttpReply → Except GenesisError Word64
  | .dropped => .error (.unreachable text HttpReply.unanswered)
  | .response status body =>
    if 400 ≤ status && status < 600 then
      let side := if status < 500 then "client" else "server"
      .error (.status text url.text side status (HttpReply.phrase status))
    else ofBody (dropByteOrderMark (HttpReply.bodyOf status body))

/-- Asks the node at `base` for the genesis time. -/
def fetch {σ : Type} (server : Server σ) (base : String) (state : σ) :
    Except GenesisError Word64 × σ :=
  let text := urlText base
  match Url.ofText text with
  | .error error => (.error (.unreachable text ("builder error: " ++ error.message)), state)
  | .ok url =>
    match url.unsendable? with
    | some cause => (.error (.unreachable text cause), state)
    | none =>
      let (reply, state) := server ⟨"GET", url⟩ state
      (ofReply text url reply, state)

end TxLoad.Genesis
