import TxLoad.CommandLine.Option
import TxLoad.Settings.Substitution

/-! # Scanning arguments

Arguments are read from left to right. An option waits for its value, and its value is checked only
when the next option comes or the arguments end, so an argument that is unknown wins over a bad
value right before it. After two hyphens alone nothing is an option any more.
-/

namespace TxLoad.CommandLine

/-- What an option was given, by the name of the option. -/
abbrev Given := List (String × List String)

structure ScanState where
  given : Given := []
  /-- The last option, and its value if it has come. -/
  pending : Option (OptionSpec × Option String) := none
  /-- Two hyphens alone have come. -/
  trailing : Bool := false

/-- Adds a value to what was given, if the option takes it. -/
def Given.add (given : Given) (o : OptionSpec) (value : String) : Except UsageError Given :=
  let before := given.lookup o.name
  if before.isSome && !o.many then .error .repeatedOption
  else
    match (o.values value).findSome? o.refuses? with
    | some error => .error error
    | none =>
      .ok (given.filter (·.1 ≠ o.name) ++ [(o.name, before.getD [] ++ o.values value)])

namespace ScanState

/-- Checks the option that is pending. -/
def settle (s : ScanState) : Except UsageError ScanState :=
  match s.pending with
  | none => .ok s
  | some (_, none) => .error .badValue
  | some (o, some value) => do return { s with given := ← s.given.add o value, pending := none }

/-- The last option waits for its value. -/
def isWaiting (s : ScanState) : Bool :=
  match s.pending with
  | some (_, none) => true
  | _ => false

end ScanState

/-- The name of a long option and the value after an equals sign. -/
def splitLong (text : List Char) : String × Option String :=
  match text.dropWhile (· ≠ '=') with
  | [] => (String.ofList text, none)
  | _ :: value => (String.ofList (text.takeWhile (· ≠ '=')), some (String.ofList value))

/-- Two hyphens and more. -/
def scanLong (spec : CommandSpec) (s : ScanState) (text : List Char) :
    Except UsageError ScanState := do
  let (name, value) := splitLong text
  let asked : Option UsageError :=
    if name = "help" then some .helpAsked
    else if name = "version" && spec.hasVersion then some .versionAsked
    else none
  match asked, spec.options.find? (·.name = name) with
  | some answer, _ =>
    if value.isSome then throw .tooManyValues
    let _ ← s.settle
    throw answer
  | none, none => throw .unknownArgument
  | none, some o =>
    let s ← s.settle
    match value with
    | none => return { s with pending := some (o, none) }
    | some value => return { s with given := ← s.given.add o value }

/-- One hyphen and letters, of which the first decides. -/
def scanShort (spec : CommandSpec) (s : ScanState) (letter : Char) :
    Except UsageError ScanState := do
  let answer : UsageError ←
    if letter = 'h' then pure .helpAsked
    else if letter = 'V' && spec.hasVersion then pure .versionAsked
    else throw .unknownArgument
  let _ ← s.settle
  throw answer

/-- An argument that is neither an option nor a value. -/
def strayError (spec : CommandSpec) (s : ScanState) (argument : String) : UsageError :=
  if spec.commands.isEmpty || (s.trailing && spec.commands.contains argument) then .unknownArgument
  else .unknownCommand

/-- Scans up to the name of a command within this one, which comes with the arguments after it. -/
def scan (spec : CommandSpec) (s : ScanState) :
    List String → Except UsageError (ScanState × Option (String × List String))
  | [] => .ok (s, none)
  | argument :: rest =>
    if s.trailing then .error (strayError spec s argument)
    else if !s.isWaiting && spec.commands.contains argument then .ok (s, some (argument, rest))
    else
      match argument.toList with
      | ['-', '-'] => scan spec { s with trailing := true } rest
      | '-' :: '-' :: text => do scan spec (← scanLong spec s text) rest
      | '-' :: letter :: _ => do scan spec (← scanShort spec s letter) rest
      | _ =>
        match s.pending with
        | some (o, none) => scan spec { s with pending := some (o, some argument) } rest
        | _ => .error (strayError spec s argument)

/-- What the environment gives for the options that are not given. -/
def fromEnvironment (env : Settings.Environment) (given : Given) :
    List OptionSpec → Except UsageError Given
  | [] => .ok []
  | o :: rest =>
    match given.lookup o.name, o.envName.bind env with
    | none, some value => do
      let added ← Given.add [] o value
      return added ++ (← fromEnvironment env given rest)
    | _, _ => fromEnvironment env given rest

/-- The values of a command's options from the arguments and from the environment. -/
structure Collected where
  arguments : Given
  environment : Given

/-- What comes after the scan of a command: the last option is checked, the environment is asked,
and the options that must be given have to be there. -/
def collect (env : Settings.Environment) (spec : CommandSpec) (s : ScanState) :
    Except UsageError Collected := do
  let s ← s.settle
  let found ← fromEnvironment env s.given spec.options
  let names := (s.given ++ found).map Prod.fst
  if spec.required.any (!names.contains ·) then throw .missingOption
  return ⟨s.given, found⟩

end TxLoad.CommandLine
