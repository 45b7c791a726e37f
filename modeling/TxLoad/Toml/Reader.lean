import TxLoad.Toml.Scalar
import TxLoad.Toml.Tree

/-! # Reading settings documents

A document is a sequence of statements, one to a line: headers of tables, and pairs of a key and a
value. Values may be nested and keys be dotted only so deep.
-/

namespace TxLoad.Toml

/-- How many arrays and tables may stand inside each other, and how many parts a key may have. -/
def maxDepth : Nat := 79

/-! ## Keys -/

def isBareChar (c : Char) : Bool := c.isAlphanum || c = '-' || c = '_'

def readKeyPart : Reader String := fun text =>
  match text with
  | '"' :: rest => do
    let (name, rest) ← readBasic (rest.length + 1) rest
    return (String.ofList name, rest)
  | '\'' :: rest => do
    let (name, rest) ← readLiteral rest
    return (String.ofList name, rest)
  | _ =>
    match text.takeWhile isBareChar with
    | [] => none
    | name => some (String.ofList name, text.dropWhile isBareChar)

/-- The parts of a key, with points between them and blanks around each. -/
def readKeyParts : Nat → Reader (List String)
  | 0, _ => none
  | fuel + 1, text => do
    let (part, rest) ← readKeyPart (skipBlanks text)
    match skipBlanks rest with
    | '.' :: rest => do
      let (parts, rest) ← readKeyParts fuel rest
      return (part :: parts, rest)
    | rest => return ([part], rest)

/-- A key: the path to its table and its name there. -/
def readKey : Reader (List String × String) := fun text => do
  let (parts, rest) ← readKeyParts (text.length + 1) text
  if maxDepth < parts.length then none
  else
    let name ← parts.getLast?
    return ((parts.dropLast, name), rest)

/-! ## Values -/

/-- The rest after a comment, up to the end of its line. -/
def skipComment? : List Char → Option (List Char)
  | '#' :: rest =>
    match rest.dropWhile isPlain with
    | [] => some []
    | rest => (newline? rest).map fun _ => rest
  | _ => none

/-- The rest after blanks, comments and line ends. -/
def skipFiller? : Nat → List Char → Option (List Char)
  | 0, _ => none
  | fuel + 1, text =>
    match skipBlanks text with
    | '#' :: rest => do skipFiller? fuel (← skipComment? ('#' :: rest))
    | '\n' :: rest => skipFiller? fuel rest
    | '\r' :: '\n' :: rest => skipFiller? fuel rest
    | rest => some rest

def readWord (word : List Char) (node : Node) : Reader Node := fun text =>
  if word.isPrefixOf text then some (node, text.drop word.length) else none

/-- A value that starts with a digit or a sign. -/
def readNumber : Reader Node := fun text =>
  match skipMoment? text, readReal text, readInteger text with
  | some rest, _, _ => some (.moment, rest)
  | none, some (x, rest), _ => some (.real x, rest)
  | none, none, some (n, rest) => some (.integer n, rest)
  | none, none, none => none

mutual

/-- A value; `room` more arrays and tables may begin in it. -/
def readValue : Nat → Nat → Reader Node
  | 0, _, _ => none
  | fuel + 1, room, text =>
    match text with
    | [] => none
    | '[' :: rest =>
      match room with
      | 0 => none
      | room + 1 => do
        let (items, rest) ← readItems fuel room rest
        return (.array items, rest)
    | '\x7b' :: rest =>
      match room with
      | 0 => none
      | room + 1 =>
        match skipBlanks rest with
        | '\x7d' :: rest => some (.record [], rest)
        | _ => do
          let (pairs, rest) ← readPairs fuel room rest
          let table ← Table.ofPairs pairs
          return (.record table.entries, rest)
    | c :: _ =>
      if c = '"' || c = '\'' then do
        let (content, rest) ← readString text
        return (.string content, rest)
      else if c = 't' then readWord "true".toList (.boolean true) text
      else if c = 'f' then readWord "false".toList (.boolean false) text
      else if c = 'i' || c = 'n' then do
        let (x, rest) ← readSpecial text
        return (.real x, rest)
      else if c.isDigit || c = '+' || c = '-' then readNumber text
      else none

/-- The items of an array, up to its closing bracket; a comma may follow the last. -/
def readItems : Nat → Nat → Reader (List Node)
  | 0, _, _ => none
  | fuel + 1, room, text => do
    match ← skipFiller? (text.length + 1) text with
    | ']' :: rest => return ([], rest)
    | rest =>
      let (item, rest) ← readValue fuel room rest
      match ← skipFiller? (rest.length + 1) rest with
      | ']' :: rest => return ([item], rest)
      | ',' :: rest =>
        let (items, rest) ← readItems fuel room rest
        return (item :: items, rest)
      | _ => none

/-- The pairs of a table between braces, up to its closing brace. -/
def readPairs : Nat → Nat → Reader (List (List String × String × Node))
  | 0, _, _ => none
  | fuel + 1, room, text => do
    let ((path, key), rest) ← readKey text
    match rest with
    | '=' :: rest =>
      let (node, rest) ← readValue fuel room (skipBlanks rest)
      match skipBlanks rest with
      | '\x7d' :: rest => return ([(path, key, node)], rest)
      | ',' :: rest =>
        let (pairs, rest) ← readPairs fuel room rest
        return ((path, key, node) :: pairs, rest)
      | _ => none
    | _ => none

end

/-! ## Statements -/

inductive Statement
  | header (path : List String) (key : String)
  | repeatedHeader (path : List String) (key : String)
  | pair (path : List String) (key : String) (node : Node)

/-- The rest after what may still stand on a line, and after the line. -/
def endLine? (text : List Char) : Option (List Char) :=
  match skipBlanks text with
  | [] => some []
  | '#' :: rest => (skipComment? ('#' :: rest)).map dropNewline
  | rest => newline? rest

def readStatement : Reader Statement := fun text =>
  match text with
  | '[' :: '[' :: rest => do
    let ((path, key), rest) ← readKey rest
    match rest with
    | ']' :: ']' :: rest => return (.repeatedHeader path key, ← endLine? rest)
    | _ => none
  | '[' :: rest => do
    let ((path, key), rest) ← readKey rest
    match rest with
    | ']' :: rest => return (.header path key, ← endLine? rest)
    | _ => none
  | _ => do
    let ((path, key), rest) ← readKey text
    match rest with
    | '=' :: rest =>
      let (node, rest) ← readValue (rest.length + 1) maxDepth (skipBlanks rest)
      return (.pair path key node, ← endLine? rest)
    | _ => none

def readStatements : Nat → List Char → Option (List Statement)
  | 0, _ => none
  | fuel + 1, text => do
    match ← skipFiller? (text.length + 1) text with
    | [] => return []
    | rest =>
      let (statement, rest) ← readStatement rest
      return statement :: (← readStatements fuel rest)

/-- What a statement adds to the document, given the path of the last header. -/
def Statement.apply (s : Statement) (state : Table × List String) : Option (Table × List String) :=
  let (document, current) := state
  match s with
  | .header path key => do
    return (← document.update false (Table.openTable key) path, path ++ [key])
  | .repeatedHeader path key => do
    return (← document.update false (Table.openElement key) path, path ++ [key])
  | .pair path key node => do
    return (← document.update false (Table.insert path key node) current, current)

/-- The document that a text is. -/
def read? (text : String) : Option Table := do
  let text := match text.toList with
    | '\ufeff' :: rest => rest
    | rest => rest
  let statements ← readStatements (text.length + 1) text
  let (document, _) ← statements.foldlM (fun state s => s.apply state) (Table.empty, [])
  return document

end TxLoad.Toml
