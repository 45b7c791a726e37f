import TxLoad.Settings.Substitution
import TxLoad.Text.Blank

/-! # Files of variables

A file of variables has an assignment on each line and may have comments. Values may be quoted, and
between quotes a line goes on over its end. A variable that is already set keeps its value. What
follows an assignment that cannot be read is not read.
-/

namespace TxLoad.Settings

/-- The variables that are set, with their values. -/
abbrev Variables := List (String × String)

def Variables.environment (known : Variables) : Environment := fun name => known.lookup name

/-- Sets a variable that is not set yet. -/
def Variables.provide (known : Variables) (name value : String) : Variables :=
  if (known.lookup name).isSome then known else known ++ [(name, value)]

namespace VariableFile

/-! ## Lines -/

/-- Where in an assignment the reader of lines stands. -/
inductive Place
  | plain
  | blank
  | escape
  | double
  | doubleEscape
  | single
  | singleEscape
  deriving DecidableEq, Repr

def isLineEnd (c : Char) : Bool := c = '\n' || c = '\r'

/-- The place after a character outside of quotes. -/
def opened (c : Char) : Place :=
  if c = '\\' then .escape else if c = '"' then .double else if c = '\'' then .single else .plain

/-- The place after a character; nothing if a comment begins with it. Right after one blank a second
one counts as plain. -/
def Place.next? : Place → Char → Option Place
  | .plain, c => some (if Text.isBlankChar c && !isLineEnd c then .blank else opened c)
  | .blank, c => if c = '#' then none else some (opened c)
  | .escape, _ => some .plain
  | .double, c => some (if c = '\\' then .doubleEscape else if c = '"' then .plain else .double)
  | .doubleEscape, _ => some .double
  | .single, c => some (if c = '\\' then .singleEscape else if c = '\'' then .plain else .single)
  | .singleEscape, _ => some .single

/-- A line up to a comment in it, and the place at its end if there is no comment. -/
def followLine : Place → List Char → List Char × Option Place
  | place, [] => ([], some place)
  | place, c :: rest =>
    match place.next? c with
    | none => ([], none)
    | some place =>
      let (kept, last) := followLine place rest
      (c :: kept, last)

/-- The lines of a text, with their ends. -/
def physicalLines : List Char → List (List Char)
  | [] => []
  | '\n' :: rest => ['\n'] :: physicalLines rest
  | c :: rest =>
    match physicalLines rest with
    | [] => [[c]]
    | line :: lines => (c :: line) :: lines

def isComment (line : List Char) : Bool := (line.dropWhile Text.isBlankChar).head? = some '#'

/-- Joins lines that go on over their ends; `begun` is the part of a line that has been read. A line
that goes on over the end of the file is dropped. -/
def joinLines (begun : List Char) (place : Place) : List (List Char) → List (List Char)
  | [] => []
  | line :: rest =>
    if isComment (begun ++ line) then joinLines [] .plain rest
    else
      match followLine place line with
      | (kept, none) => (begun ++ kept) :: joinLines [] .plain rest
      | (_, some .plain) => (begun ++ line) :: joinLines [] .plain rest
      | (_, some place) => joinLines (begun ++ line) place rest

/-! ## Values -/

/-- Where in a value its reader stands. -/
inductive Mode
  | bare
  | double
  | single
  /-- After a backslash, between quotes or not. -/
  | escaped (quoted : Bool)
  /-- In the name of a variable after a dollar sign. -/
  | named (quoted : Bool) (name : List Char)
  /-- In such a name between braces. -/
  | braced (quoted : Bool) (name : List Char)
  /-- After the value, where only blanks and a comment may stand. -/
  | done
  deriving DecidableEq, Repr

def valueOf (env : Environment) (name : List Char) : List Char :=
  ((env (String.ofList name)).getD "").toList

def unquoted (quoted : Bool) : Mode := if quoted then .double else .bare

/-- What a character after a backslash stands for. -/
def escape? (c : Char) : Option Char :=
  if ['\\', '\'', '"', '$', ' '].contains c then some c else if c = 'n' then some '\n' else none

/-- Reads a value. The character that ends a name without braces stands for itself, even a quote. -/
def readValue? (env : Environment) : Mode → List Char → Option (List Char)
  | .bare, [] => some []
  | .bare, c :: rest =>
    if c = '$' then readValue? env (.named false []) rest
    else if c = '\'' then readValue? env .single rest
    else if c = '"' then readValue? env .double rest
    else if c = '\\' then readValue? env (.escaped false) rest
    else if c = ' ' || c = '\t' then readValue? env .done rest
    else (c :: ·) <$> readValue? env .bare rest
  | .double, [] => none
  | .double, c :: rest =>
    if c = '$' then readValue? env (.named true []) rest
    else if c = '"' then readValue? env .bare rest
    else if c = '\\' then readValue? env (.escaped true) rest
    else (c :: ·) <$> readValue? env .double rest
  | .single, [] => none
  | .single, c :: rest =>
    if c = '\'' then readValue? env .bare rest else (c :: ·) <$> readValue? env .single rest
  | .escaped quoted, [] => if quoted then none else some []
  | .escaped quoted, c :: rest => do
    let c ← escape? c
    (c :: ·) <$> readValue? env (unquoted quoted) rest
  | .named quoted name, [] => if quoted then none else some (valueOf env name)
  | .named quoted name, c :: rest =>
    if c.isAlphanum then readValue? env (.named quoted (name ++ [c])) rest
    else if c = '\x7b' && name.isEmpty then readValue? env (.braced quoted []) rest
    else if c = '$' then (valueOf env name ++ ·) <$> readValue? env (.named quoted []) rest
    else (valueOf env name ++ c :: ·) <$> readValue? env (unquoted quoted) rest
  | .braced _ _, [] => none
  | .braced quoted name, c :: rest =>
    if c = '\x7d' then (valueOf env name ++ ·) <$> readValue? env (unquoted quoted) rest
    else readValue? env (.braced quoted (name ++ [c])) rest
  | .done, [] => some []
  | .done, c :: rest =>
    if c = ' ' || c = '\t' then readValue? env .done rest
    else if c = '#' then some []
    else none

/-! ## Assignments -/

def skipBlanks (text : List Char) : List Char := text.dropWhile Text.isBlankChar

def isKeyChar (c : Char) : Bool := c.isAlphanum || c = '_' || c = '.'

/-- A name, with the blanks after it. -/
def readName? : List Char → Option (String × List Char)
  | [] => none
  | c :: rest =>
    if c.isAlpha || c = '_' then
      some (String.ofList (c :: rest.takeWhile isKeyChar), skipBlanks (rest.dropWhile isKeyChar))
    else none

/-- The name of an assignment and what follows the equals sign. The word `export` may stand in
front. -/
def readAssigned? (text : List Char) : Option (String × List Char) := do
  let (name, rest) ← readName? text
  match rest with
  | '=' :: rest => return (name, rest)
  | _ =>
    if name = "export" then
      match ← readName? rest with
      | (name, '=' :: rest) => return (name, rest)
      | _ => none
    else none

/-- What a line assigns, if it is no comment and not blank. -/
def readLine? (env : Environment) (line : String) : Option (Option (String × String)) := do
  let text := (Text.trim line).toList
  if text.isEmpty || text.head? = some '#' then return none
  let (name, rest) ← readAssigned? text
  let rest := skipBlanks rest
  if rest.head? = some '#' then return some (name, "")
  let value ← readValue? env .bare rest
  return some (name, String.ofList value)

/-- Provides what the lines assign, up to the first that cannot be read. -/
def provideAll (known : Variables) : List String → Variables
  | [] => known
  | line :: rest =>
    match readLine? known.environment line with
    | none => known
    | some none => provideAll known rest
    | some (some (name, value)) => provideAll (known.provide name value) rest

end VariableFile

/-- The variables after a file of variables has been read. -/
def Variables.withFile (known : Variables) (text : String) : Variables :=
  let text := match text.toList with
    | '\ufeff' :: rest => rest
    | rest => rest
  let lines := VariableFile.joinLines [] .plain (VariableFile.physicalLines text)
  VariableFile.provideAll known (lines.map String.ofList)

end TxLoad.Settings
