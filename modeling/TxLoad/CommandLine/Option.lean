import TxLoad.Binary64.Reader
import TxLoad.Settings.Draft
import TxLoad.Text.Numeral

/-! # The options of the command line

An option has a name and takes one value each time it is given. Some options may be given more than
once, and their values are split at commas. An option may have a variable of the environment that
stands in when it is not given.
-/

namespace TxLoad.CommandLine

/-- Why the arguments are no command, or what they ask for in its place. -/
inductive UsageError
  | badNumber
  | badValue
  | unknownArgument
  | repeatedOption
  | tooManyValues
  | unknownCommand
  | missingOption
  | missingCommand
  | helpAsked
  | versionAsked
  | nothingGiven
  deriving DecidableEq, Repr, Inhabited

/-- The status with which a program ends that was not called rightly, or only for help. -/
def UsageError.status : UsageError → Nat
  | helpAsked | versionAsked => 0
  | _ => 2

/-- The answer to who asks for the version. -/
def versionLine : String := "tx-spammer 0.1.0"

inductive LogFormat
  | text
  | json
  deriving DecidableEq, Repr, Inhabited

def LogFormat.ofName? : String → Option LogFormat
  | "text" => some .text
  | "json" => some .json
  | _ => none

/-- What the value of an option must be. -/
inductive ValueKind
  | text
  | path
  | real
  | word
  | small (bits : Nat)
  | format
  deriving DecidableEq, Repr

structure OptionSpec where
  name : String
  kind : ValueKind
  many : Bool := false
  envName : Option String := none
  deriving DecidableEq, Repr

/-- The number of a text with a sign, if it fits `bits` bits. -/
def smallWord? (bits : Nat) (text : String) : Option (BitVec bits) :=
  match text.toList with
  | '-' :: digits =>
    match Text.digitsValue? digits with
    | some 0 => some 0
    | _ => none
  | _ => Text.word? bits text

namespace OptionSpec

/-- The value is refused. -/
def refuses? (o : OptionSpec) (value : String) : Option UsageError :=
  let number (valid : Bool) : Option UsageError := if valid then none else some .badNumber
  match o.kind with
  | .text => none
  | .path => if value.isEmpty then some .badValue else none
  | .real => number (Binary64.read? value).isSome
  | .word => number (Text.word? 64 value).isSome
  | .small bits => number (smallWord? bits value).isSome
  | .format => if (LogFormat.ofName? value).isSome then none else some .badValue

/-- The single values of what is given as one. -/
def values (o : OptionSpec) (given : String) : List String :=
  if o.many then given.splitOn "," else [given]

end OptionSpec

/-- A command: its options, those that must be given, and the commands within it. -/
structure CommandSpec where
  options : List OptionSpec
  required : List String := []
  commands : List String := []
  hasVersion : Bool := false
  deriving Repr

def formatOption : OptionSpec :=
  { name := "log-format", kind := .format, envName := some "LOG_FORMAT" }

def spamCommand : CommandSpec where
  options :=
    [{ name := "config", kind := .path, envName := some "SPAMMER_CONFIG" },
      { name := "private-key", kind := .text, envName := some "PRIVATE_KEY" },
      { name := "recipient", kind := .text, envName := some "RECIPIENT_ADDRESS" },
      { name := "rpc-url", kind := .text, many := true, envName := some "RPC_URL" },
      { name := "amount", kind := .real },
      { name := "count", kind := .word },
      { name := "batch-size", kind := .word },
      { name := "sleep", kind := .real },
      { name := "slots", kind := .small 8, many := true },
      { name := "beacon-rpc-url", kind := .text, envName := some "BEACON_RPC_URL" },
      { name := "submit-timeout", kind := .word },
      { name := "metrics-port", kind := .small 16 },
      formatOption]

def revertCheckCommand : CommandSpec where
  options :=
    [{ name := "tx-hash", kind := .text },
      { name := "rpc-url", kind := .text, envName := some "RPC_URL" },
      formatOption]
  required := ["tx-hash", "rpc-url"]

def rootCommand : CommandSpec where
  options := [formatOption]
  commands := ["spam", "revert-check", "help"]
  hasVersion := true

end TxLoad.CommandLine
