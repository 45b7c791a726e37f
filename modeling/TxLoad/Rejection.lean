import TxLoad.Failure
import TxLoad.Duration
import TxLoad.Text.Caseless

/-! # Why a submission did not count

A node says why it refuses a transaction in free text, which is sorted into kinds by phrases. The
kinds are asked in a fixed order, and a text that mentions none of their phrases is of the kind
`rpc`. Two kinds never come from a text: the endpoint did not answer in time, or the submission
itself was aborted.
-/

namespace TxLoad

namespace Rejection

inductive Kind
  | nonceTooLow
  | alreadyKnown
  | underpriced
  | insufficientFunds
  | timeout
  | aborted
  | rpc
  deriving DecidableEq, Repr, Inhabited

namespace Kind

def all : List Kind :=
  [nonceTooLow, alreadyKnown, underpriced, insufficientFunds, timeout, aborted, rpc]

def name : Kind → String
  | nonceTooLow => "nonce_too_low"
  | alreadyKnown => "already_known"
  | underpriced => "underpriced"
  | insufficientFunds => "insufficient_funds"
  | timeout => "timeout"
  | aborted => "aborted"
  | rpc => "rpc"

/-- The phrases that point to a kind. -/
def phrases : Kind → List String
  | nonceTooLow => ["nonce too low"]
  | alreadyKnown => ["already known", "known transaction"]
  | underpriced => ["underpriced"]
  | insufficientFunds => ["insufficient funds"]
  | timeout | aborted | rpc => []

/-- The first kind of which the text mentions a phrase. -/
def ofText (text : String) : Kind :=
  (all.find? fun kind => kind.phrases.any (Text.mentions text)).getD rpc

end Kind

end Rejection

structure Rejection where
  kind : Rejection.Kind
  message : String
  deriving DecidableEq, Repr, Inhabited

namespace Rejection

def text (r : Rejection) : String := r.kind.name ++ ": " ++ r.message

/-- The text of a failure that tells its kind. The name of a call is no part of it. -/
def reason : Failure → String
  | .call failure => failure.message
  | failure => failure.message

def ofFailure (failure : Failure) : Rejection := ⟨.ofText (reason failure), reason failure⟩

def ofTimeout (limit : Duration) : Rejection :=
  ⟨.timeout, "no response within " ++ limit.text⟩

def ofFault (fault : Fault) : Rejection :=
  ⟨.aborted, "task panicked with message " ++ Text.quoted fault.message⟩

end Rejection

end TxLoad
