import TxLoad.Failure
import TxLoad.Rlp

/-! # Transactions with a base fee and a priority fee

A request leaves fields open; its fields are what it says once an open number is zero and an open
recipient or text is empty. The payload is the byte `0x02` and a list of the nine fields, to which a
signed payload adds the signature. What is signed is the digest of the payload without signature.
-/

namespace TxLoad

structure AccessEntry where
  address : Address
  storageKeys : List Hash
  deriving DecidableEq, Repr, Inhabited

structure Request where
  sender : Option Address := none
  recipient : Option Address := none
  value : Option Word256 := none
  nonce : Option Word256 := none
  gasLimit : Option Word256 := none
  maxFee : Option Word256 := none
  priorityFee : Option Word256 := none
  chainId : Option Word64 := none
  data : Option Bytes := none
  accessList : List AccessEntry := []
  deriving DecidableEq, Repr, Inhabited

/-- What a payload says. -/
structure Fields where
  chainId : Word64
  nonce : Word256
  priorityFee : Word256
  maxFee : Word256
  gasLimit : Word256
  recipient : Option Address
  value : Word256
  data : Bytes
  accessList : List AccessEntry
  deriving DecidableEq, Repr, Inhabited

def Request.fields (r : Request) : Fields where
  chainId := r.chainId.getD 0
  nonce := r.nonce.getD 0
  priorityFee := r.priorityFee.getD 0
  maxFee := r.maxFee.getD 0
  gasLimit := r.gasLimit.getD 0
  recipient := r.recipient
  value := r.value.getD 0
  data := r.data.getD []
  accessList := r.accessList

open Rlp (Item)

def AccessEntry.item (e : AccessEntry) : Item :=
  .list [.bytes e.address.bytes, .list (e.storageKeys.map fun key => .bytes key.bytes)]

namespace Fields

def items (f : Fields) : List Item :=
  [.nat f.chainId.toNat, .nat f.nonce.toNat, .nat f.priorityFee.toNat, .nat f.maxFee.toNat,
    .nat f.gasLimit.toNat, .bytes (f.recipient.elim [] Address.bytes), .nat f.value.toNat,
    .bytes f.data, .list (f.accessList.map AccessEntry.item)]

/-- The first byte of a payload, which tells the kind of transaction. -/
def kindByte : UInt8 := 0x02

def unsignedPayload (f : Fields) : Bytes := kindByte :: Rlp.encode (.list f.items)

def signingDigest (f : Fields) : Hash := keccak256 f.unsignedPayload

end Fields

/-! ## Signing -/

def signatureItems (signature : Crypto.Signature) : List Item :=
  [.nat signature.odd.toNat, .nat signature.r, .nat signature.s]

def signedPayload (f : Fields) (signature : Crypto.Signature) : Bytes :=
  Fields.kindByte :: Rlp.encode (.list (f.items ++ signatureItems signature))

structure SignedTransfer where
  nonce : Word64
  /-- The digest of the payload, by which the chain will know the transaction. -/
  hash : Hash
  payload : Bytes
  request : Request
  deriving DecidableEq, Repr, Inhabited

/-- The number in which a signature for one chain carries its parity: twice the chain's id and 35 or
36. It must fit 64 bits. -/
def chainBoundParity (signature : Crypto.Signature) (chainId : Word64) : Except Fault Word64 := do
  let doubled ← chainId.times 2
  Word64.plus (BitVec.ofNat 64 (35 + signature.odd.toNat)) doubled

/-- Signs a request that carries its nonce and its chain. -/
def Account.sign (account : Account) (request : Request) : Except Stop SignedTransfer := do
  let wide ← match request.nonce with
    | some wide => pure wide
    | none => throw (.failure (.internal .noNonce))
  let nonce ← (Word256.narrow wide).mapError .fault
  let chainId ← match request.chainId with
    | some chainId => pure chainId
    | none => throw (.failure (.internal .noChainId))
  let fields := request.fields
  let signature := account.key.sign fields.signingDigest
  let _ ← (chainBoundParity signature chainId).mapError .fault
  let payload := signedPayload fields signature
  return ⟨nonce, keccak256 payload, payload, request⟩

/-! ## Reading payloads -/

/-- The word that a byte string spells without leading zeros. -/
def readWord? (width : Nat) : Item → Option (BitVec width)
  | .list _ => none
  | .bytes digits =>
    if digits.head? = some 0x00 then none
    else if Bytes.toNat digits < wordCount width then some (BitVec.ofNat width (Bytes.toNat digits))
    else none

def readAddress? : Item → Option Address
  | .bytes content =>
    if content.length = 20 then some ⟨BitVec.ofNat 160 (Bytes.toNat content)⟩ else none
  | .list _ => none

def readHash? : Item → Option Hash
  | .bytes content =>
    if content.length = 32 then some ⟨BitVec.ofNat 256 (Bytes.toNat content)⟩ else none
  | .list _ => none

def readAccessEntry? : Item → Option AccessEntry
  | .list [address, .list keys] => do
    return ⟨← readAddress? address, ← keys.mapM readHash?⟩
  | _ => none

def readRecipient? : Item → Option (Option Address)
  | .bytes [] => some none
  | item => some <$> readAddress? item

def Fields.ofItems? : List Item → Option Fields
  | [chainId, nonce, priorityFee, maxFee, gasLimit, recipient, value, .bytes data,
      .list accessList] => do
    return {
      chainId := ← readWord? 64 chainId
      nonce := ← readWord? 256 nonce
      priorityFee := ← readWord? 256 priorityFee
      maxFee := ← readWord? 256 maxFee
      gasLimit := ← readWord? 256 gasLimit
      recipient := ← readRecipient? recipient
      value := ← readWord? 256 value
      data := data
      accessList := ← accessList.mapM readAccessEntry? }
  | _ => none

def readSignature? : List Item → Option Crypto.Signature
  | [parity, r, s] => do
    let parity ← readWord? 1 parity
    return ⟨parity = 1, (← readWord? 256 r).toNat, (← readWord? 256 s).toNat⟩
  | _ => none

/-- What a signed payload says, and its signature. -/
def readPayload? (payload : Bytes) : Option (Fields × Crypto.Signature) :=
  match payload with
  | [] => none
  | byte :: body =>
    if byte ≠ Fields.kindByte then none
    else
      match Rlp.decode? body with
      | some (.list items) => do
        return (← Fields.ofItems? (items.take 9), ← readSignature? (items.drop 9))
      | _ => none

/-- The account that signed a payload. -/
def payloadSender? (payload : Bytes) : Option Address := do
  let (fields, signature) ← readPayload? payload
  signature.recover? fields.signingDigest

end TxLoad
