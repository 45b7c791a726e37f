import TxLoad.Session
import TxLoad.Settings.VariableFile
import TxLoad.Telemetry.Filter
import TxLoad.Telemetry.Record

/-! # The program

The program reads its arguments, its environment and its files, lets a session run, and prints the
log and the complaint. It has no connection to a network: every node counts as one that does not
answer.
-/

namespace TxLoad.Program

open CommandLine (LogFormat UsageError)

/-- The variables that the program was started with. -/
def readVariables : IO Settings.Variables := do
  let entries ← try IO.FS.readFile "/proc/self/environ" catch _ => pure ""
  return (entries.splitOn "\x00").filterMap fun entry =>
    match entry.splitOn "=" with
    | name :: value :: more => some (name, String.intercalate "=" (value :: more))
    | _ => none

def readOptional (path : String) : IO (Option String) :=
  try some <$> IO.FS.readFile path catch _ => pure none

/-- What is told of a file that cannot be read. -/
def causeOf : IO.Error → String
  | .noFileOrDirectory .. => "No such file or directory (os error 2)"
  | .permissionDenied .. => "Permission denied (os error 13)"
  | .inappropriateType .. => "Is a directory (os error 21)"
  | error => toString error

/-- The files that a command names. -/
def readFiles (command : CommandLine.Command) : IO Settings.Files :=
  match command with
  | .spam { file := some path, .. } => do
    let content ←
      try pure (.ok (← IO.FS.readFile path)) catch error => pure (.error (causeOf error))
    return fun _ => content
  | _ => return fun _ => .error "No such file or directory (os error 2)"

/-- Surroundings in which nothing can be reached. -/
def unconnected (environment : Settings.Environment) (files : Settings.Files) :
    Surroundings Unit where
  environment
  files
  clock _ passed := passed.millis
  nodes _ _ s := (.dropped, s)
  server _ s := (.dropped, s)

def detailText : Detail → String
  | .text text => Text.quoted text
  | .number n => toString n
  | .real x => x.text
  | .flag value => toString value

/-- A line of the log. -/
def lineOf (format : LogFormat) (n : Notice) : String :=
  match format with
  | .json => (Telemetry.recordJson n).compact
  | .text =>
    let fields := n.fields.map fun (name, detail) => " " ++ name ++ "=" ++ detailText detail
    n.level.name ++ " " ++ n.target ++ ": " ++ n.message ++ String.join fields

def usage : String :=
  "Usage: tx-spammer [--log-format <text|json>] <spam|revert-check|help> [OPTIONS]"

/-- Answers to arguments that are no command. -/
def reportUsage (error : UsageError) : IO Unit :=
  match error with
  | .versionAsked => IO.println CommandLine.versionLine
  | .helpAsked => IO.println usage
  | _ => IO.eprintln usage

end TxLoad.Program

open TxLoad TxLoad.Program in
def main (arguments : List String) : IO UInt32 := do
  let given ← readVariables
  let known := match ← readOptional ".env" with
    | some text => given.withFile text
    | none => given
  let environment := known.environment
  match CommandLine.parse environment arguments with
  | .error error =>
    reportUsage error
    return UInt32.ofNat error.status
  | .ok invocation =>
    let surroundings := unconnected environment (← readFiles invocation.command)
    let (ending, w) := Session.run surroundings invocation.command ()
    let filter := Telemetry.Filter.ofVariable (environment "RUST_LOG")
    for notice in (Session.noticesOf w).filter filter.shows do
      IO.println (lineOf invocation.format notice)
    if ending ≠ .success then IO.eprintln ending.complaint
    return UInt32.ofNat ending.status
