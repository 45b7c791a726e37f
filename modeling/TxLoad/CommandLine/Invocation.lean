import TxLoad.CommandLine.Scan

/-! # What a command line asks for

A command within the program is scanned to its end, with its environment, before the options that
come in front of it are checked. The log format may be given in both places; the inner one counts,
and either counts more than the environment.
-/

namespace TxLoad.CommandLine

inductive Command
  | spam (draft : Settings.Draft)
  | revertCheck (hash url : String)
  deriving DecidableEq, Repr

structure Invocation where
  format : LogFormat
  command : Command
  deriving DecidableEq, Repr

def Collected.values (c : Collected) (name : String) : List String :=
  ((c.arguments ++ c.environment).lookup name).getD []

def Collected.value? (c : Collected) (name : String) : Option String := (c.values name).head?

/-- The settings that are given. All values have been checked, so each of them can be read. -/
def Collected.draft (c : Collected) : Settings.Draft where
  file := c.value? "config"
  privateKey := c.value? "private-key"
  recipient := c.value? "recipient"
  endpoints := c.values "rpc-url"
  amount := (c.value? "amount").bind Binary64.read?
  count := (c.value? "count").bind (Text.word? 64)
  batchSize := (c.value? "batch-size").bind (Text.word? 64)
  pause := (c.value? "sleep").bind Binary64.read?
  slots := (c.values "slots").filterMap (smallWord? 8)
  beacon := c.value? "beacon-rpc-url"
  submitLimit := (c.value? "submit-timeout").bind (Text.word? 64)
  metricsPort := (c.value? "metrics-port").bind (smallWord? 16)

def Collected.command (c : Collected) : String → Command
  | "revert-check" => .revertCheck ((c.value? "tx-hash").getD "") ((c.value? "rpc-url").getD "")
  | _ => .spam c.draft

def commandSpec : String → CommandSpec
  | "revert-check" => revertCheckCommand
  | _ => spamCommand

/-- The log format of the first place that has one. -/
def formatOf (inner outer : Collected) : LogFormat :=
  let given := [inner.arguments, outer.arguments, inner.environment, outer.environment]
  let name := given.findSome? fun g => (g.lookup formatOption.name).bind List.head?
  (name.bind LogFormat.ofName?).getD .text

/-- The help for a command, which must be one. -/
def helpFor : List String → UsageError
  | [] => .helpAsked
  | [name] => if rootCommand.commands.contains name then .helpAsked else .unknownCommand
  | _ => .unknownCommand

/-- Only a command is missing, or everything is. -/
def withoutCommand (c : Collected) : UsageError :=
  if c.arguments.isEmpty && c.environment.isEmpty then .nothingGiven else .missingCommand

/-- Reads the arguments after the program's name. -/
def parse (env : Settings.Environment) (arguments : List String) :
    Except UsageError Invocation := do
  let (outer, command) ← scan rootCommand {} arguments
  match command with
  | none => throw (withoutCommand (← collect env rootCommand outer))
  | some ("help", rest) => throw (helpFor rest)
  | some (name, rest) =>
    let spec := commandSpec name
    let (inner, _) ← scan spec {} rest
    let inner ← collect env spec inner
    let outer ← collect env rootCommand outer
    return ⟨formatOf inner outer, inner.command name⟩

end TxLoad.CommandLine
