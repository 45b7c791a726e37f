import TxLoad.Account

/-! # What a run reports when it cannot go on

A failure is a cause together with the data that its message shows. Failures of the configuration
are found before the network is used; failures of an endpoint may pass when the run is repeated.
-/

namespace TxLoad

/-- Why settings do not make a run. -/
inductive Misconfiguration
  | keyUnset
  | key (error : KeyError)
  | recipientUnset
  | recipient (text : String) (error : Hex.FixedError)
  | amount (text : String) (cause : Option String)
  | pause (text cause : String)
  | noEndpoint
  | noCount
  | noBatchSize
  | slotRange (slot : Nat)
  | unreadableFile (path cause : String)
  | malformedFile (path : String)
  | transactionHash (error : Hex.FixedError)
  | noUsableEndpoint
  | other (text : String)
  deriving DecidableEq, Repr

namespace Misconfiguration

def message : Misconfiguration → String
  | keyUnset => "PRIVATE_KEY is not set"
  | key error => "Wallet error: " ++ error.message
  | recipientUnset => "RECIPIENT_ADDRESS is not set"
  | recipient text error => "Invalid recipient " ++ text ++ ": " ++ error.message
  | amount text none => "Invalid amount " ++ text
  | amount text (some cause) => "Invalid amount " ++ text ++ ": " ++ cause
  | pause text cause => "Invalid sleep " ++ text ++ ": " ++ cause
  | noEndpoint => "No RPC URL configured"
  | noCount => "count must be at least 1"
  | noBatchSize => "batch size must be at least 1"
  | slotRange slot => "Slot " ++ toString slot ++ " out of range 0-31"
  | unreadableFile path cause =>
    "Failed to read config file " ++ Text.quoted path ++ ": " ++ cause
  | malformedFile path => "Failed to parse config file " ++ Text.quoted path
  | transactionHash error => "Invalid tx hash: " ++ error.message
  | noUsableEndpoint => "No valid RPC endpoints"
  | other text => text

end Misconfiguration

/-- Why a transaction cannot be signed or a batch not be built. -/
inductive Refusal
  | noNonce
  | noChainId
  | emptyRange
  | cannotListen (port : Nat) (cause : String)
  | other (text : String)
  deriving DecidableEq, Repr

def Refusal.message : Refusal → String
  | .noNonce => "Cannot sign a request without a nonce"
  | .noChainId => "Cannot sign a request without a chain id"
  | .emptyRange => "Cannot allocate an empty nonce range"
  | .cannotListen port cause => "Cannot bind 0.0.0.0:" ++ toString port ++ ": " ++ cause
  | .other text => text

inductive WalletError
  | key (error : KeyError)
  | other (text : String)
  deriving DecidableEq, Repr

def WalletError.message : WalletError → String
  | .key error => error.message
  | .other text => text

inductive PricingError
  | noBaseFee
  | other (text : String)
  deriving DecidableEq, Repr

def PricingError.message : PricingError → String
  | .noBaseFee => "No base fee in latest block"
  | .other text => text

/-- Why the genesis time could not be read. -/
inductive GenesisError
  | unreachable (url cause : String)
  | status (text url side : String) (code : Nat) (phrase : String)
  | malformed
  | other (text : String)
  deriving DecidableEq, Repr

def GenesisError.message : GenesisError → String
  | .unreachable url cause => "GET " ++ url ++ ": " ++ cause
  | .status text url side code phrase =>
    "GET " ++ text ++ ": HTTP status " ++ side ++ " error (" ++ toString code ++ " " ++ phrase
      ++ ") for url (" ++ url ++ ")"
  | .malformed => "Malformed genesis response"
  | .other text => text

/-- A failure of the endpoint's call `method`. -/
structure CallFailure where
  method : String
  message : String
  deriving DecidableEq, Repr, Inhabited

inductive Failure
  | configuration (cause : Misconfiguration)
  | scheduling (slots : List Nat)
  | wallet (cause : WalletError)
  | call (failure : CallFailure)
  | pricing (cause : PricingError)
  | genesis (cause : GenesisError)
  | notFound (hash : String)
  | reverted (hash : String) (reason : Option String)
  | internal (cause : Refusal)
  deriving DecidableEq, Repr

namespace Failure

/-- Numbers between brackets, with a comma and a space between two of them. -/
def listText (numbers : List Nat) : String :=
  "[" ++ String.intercalate ", " (numbers.map toString) ++ "]"

def message : Failure → String
  | configuration cause => "Configuration error: " ++ cause.message
  | scheduling slots => "Slot targets " ++ listText slots ++ " require a beacon RPC endpoint"
  | wallet cause => "Wallet error: " ++ cause.message
  | call failure => "RPC call " ++ failure.method ++ " failed: " ++ failure.message
  | pricing cause => "Gas estimation error: " ++ cause.message
  | genesis cause => "Beacon API error: " ++ cause.message
  | notFound hash => "Transaction " ++ hash ++ " not found"
  | reverted hash reason =>
    "Transaction " ++ hash ++ " reverted: " ++ reason.getD "no reason returned"
  | internal cause => "Internal error: " ++ cause.message

/-- The failure lies in the settings and was found before the network was used. -/
def isConfiguration : Failure → Bool
  | configuration _ | scheduling _ => true
  | _ => false

/-- The failure lies with an endpoint and may pass. -/
def isRetryable : Failure → Bool
  | call _ | genesis _ => true
  | _ => false

end Failure

/-- Why a computation has no result: it failed, it met a defect, or it was cut off from outside. -/
inductive Stop
  | failure (failure : Failure)
  | fault (fault : Fault)
  | cut
  deriving DecidableEq, Repr

end TxLoad
