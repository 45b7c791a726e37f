import TxLoad.Json.Basic

/-! # Reading JSON

Recursive descent over the characters. The fuel counts the steps down into values; the length of the
text is always enough of it, because each step takes at least one character.
-/

namespace TxLoad.Json

def isSpace (c : Char) : Bool := c = ' ' || c = '\n' || c = '\t' || c = '\r'

def skipSpace (text : List Char) : List Char := text.dropWhile isSpace

/-! ## Strings -/

def unitOf? (a b c d : Char) : Option Nat := do
  return (((← Text.hexDigit? a) * 16 + (← Text.hexDigit? b)) * 16 + (← Text.hexDigit? c)) * 16
    + (← Text.hexDigit? d)

/-- The character that a short escape stands for. -/
def shortEscape? (c : Char) : Option Char :=
  if c = '"' || c = '\\' || c = '/' then some c
  else if c = 'b' then some '\x08'
  else if c = 'f' then some '\x0c'
  else if c = 'n' then some '\n'
  else if c = 'r' then some '\r'
  else if c = 't' then some '\t'
  else none

/-- The pieces up to the closing quote and what comes after it. -/
def readPieces : List Char → Option (List Piece × List Char)
  | [] => none
  | '"' :: rest => some ([], rest)
  | '\\' :: 'u' :: a :: b :: c :: d :: rest => do
    let unit ← unitOf? a b c d
    let (pieces, rest) ← readPieces rest
    return (.unit unit :: pieces, rest)
  | '\\' :: c :: rest => do
    let c ← shortEscape? c
    let (pieces, rest) ← readPieces rest
    return (.escape c :: pieces, rest)
  | c :: rest =>
    if c.toNat < 0x20 || c = '\\' then none
    else do
      let (pieces, rest) ← readPieces rest
      return (.literal c :: pieces, rest)

/-! ## Numbers -/

/-- The digits of a text and the rest; there must be at least one. -/
def readDigits (text : List Char) : Option (List Char × List Char) :=
  match text.takeWhile Char.isDigit with
  | [] => none
  | digits => some (digits, text.dropWhile Char.isDigit)

/-- Digits without a zero in front of others. -/
def readWhole (text : List Char) : Option (List Char × List Char) :=
  match readDigits text with
  | some ('0' :: _ :: _, _) => none
  | result => result

def readFraction : List Char → Option (List Char × List Char)
  | '.' :: rest => readDigits rest
  | rest => some ([], rest)

def readSign : List Char → Bool × List Char
  | '-' :: rest => (true, rest)
  | '+' :: rest => (false, rest)
  | rest => (false, rest)

def readExponent (text : List Char) : Option (Option (Bool × List Char) × List Char) :=
  match text with
  | [] => some (none, [])
  | c :: rest =>
    if c = 'e' || c = 'E' then do
      let (negative, rest) := readSign rest
      let (digits, rest) ← readDigits rest
      return (some (negative, digits), rest)
    else some (none, text)

def readNumeral (text : List Char) : Option (Numeral × List Char) := do
  let (negative, text) := match text with
    | '-' :: rest => (true, rest)
    | _ => (false, text)
  let (whole, text) ← readWhole text
  let (fraction, text) ← readFraction text
  let (exponent, text) ← readExponent text
  return (⟨negative, whole, fraction, exponent⟩, text)

/-! ## Values -/

/-- The rest after a word. -/
def readWord (word : List Char) (text : List Char) : Option (List Char) :=
  if word.isPrefixOf text then some (text.drop word.length) else none

mutual

/-- A value at the front of the text, which no space precedes. -/
def readValue : Nat → List Char → Option (Json × List Char)
  | 0, _ => none
  | fuel + 1, text =>
    match text with
    | [] => none
    | '"' :: rest => do
      let (pieces, rest) ← readPieces rest
      return (.string pieces, rest)
    | '[' :: rest =>
      match skipSpace rest with
      | ']' :: rest => some (.array [], rest)
      | rest => do
        let (items, rest) ← readItems fuel rest
        return (.array items, rest)
    | '\x7b' :: rest =>
      match skipSpace rest with
      | '\x7d' :: rest => some (.object [], rest)
      | rest => do
        let (members, rest) ← readMembers fuel rest
        return (.object members, rest)
    | 'n' :: _ => do return (.null, ← readWord "null".toList text)
    | 't' :: _ => do return (.bool true, ← readWord "true".toList text)
    | 'f' :: _ => do return (.bool false, ← readWord "false".toList text)
    | _ => do
      let (numeral, rest) ← readNumeral text
      return (.number numeral, rest)

/-- The items up to the closing bracket. -/
def readItems : Nat → List Char → Option (List Json × List Char)
  | 0, _ => none
  | fuel + 1, text => do
    let (item, rest) ← readValue fuel text
    match skipSpace rest with
    | ']' :: rest => some ([item], rest)
    | ',' :: rest =>
      let (items, rest) ← readItems fuel (skipSpace rest)
      return (item :: items, rest)
    | _ => none

/-- The members up to the closing brace. -/
def readMembers : Nat → List Char → Option (List (List Piece × Json) × List Char)
  | 0, _ => none
  | fuel + 1, text =>
    match text with
    | '"' :: rest => do
      let (name, rest) ← readPieces rest
      match skipSpace rest with
      | ':' :: rest =>
        let (value, rest) ← readValue fuel (skipSpace rest)
        match skipSpace rest with
        | '\x7d' :: rest => some ([(name, value)], rest)
        | ',' :: rest =>
          let (members, rest) ← readMembers fuel (skipSpace rest)
          return ((name, value) :: members, rest)
        | _ => none
      | _ => none
    | _ => none

end

/-- The value that a whole text is, with space around it. -/
def read? (text : String) : Option Json :=
  let text := skipSpace text.toList
  match readValue (text.length + 1) text with
  | some (value, rest) => if (skipSpace rest).isEmpty then some value else none
  | none => none

end TxLoad.Json
