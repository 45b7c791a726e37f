import TxLoad.Json.Basic

/-! # Writing JSON

The compact form, without space between tokens. Control characters are escaped, by a letter where
one exists; all other characters stand as they are.
-/

namespace TxLoad.Json

def escapedUnit (unit : Nat) : List Char :=
  ['\\', 'u', Text.hexDigit (unit / 4096 % 16), Text.hexDigit (unit / 256 % 16),
    Text.hexDigit (unit / 16 % 16), Text.hexDigit (unit % 16)]

/-- How a character is written in a string. -/
def writtenChar (c : Char) : List Char :=
  if c = '"' || c = '\\' then ['\\', c]
  else if c = '\x08' then ['\\', 'b']
  else if c = '\x0c' then ['\\', 'f']
  else if c = '\n' then ['\\', 'n']
  else if c = '\r' then ['\\', 'r']
  else if c = '\t' then ['\\', 't']
  else if c.toNat < 0x20 then escapedUnit c.toNat
  else [c]

def writtenPiece : Piece → List Char
  | .literal c | .escape c => writtenChar c
  | .unit unit => escapedUnit unit

def writtenString (pieces : List Piece) : List Char :=
  '"' :: pieces.flatMap writtenPiece ++ ['"']

def writtenNumeral (n : Numeral) : List Char :=
  (if n.negative then ['-'] else []) ++ n.whole
    ++ (if n.fraction.isEmpty then [] else '.' :: n.fraction)
    ++ match n.exponent with
      | none => []
      | some (negative, digits) => 'e' :: (if negative then '-' :: digits else digits)

mutual

def written : Json → List Char
  | .null => "null".toList
  | .bool true => "true".toList
  | .bool false => "false".toList
  | .number numeral => writtenNumeral numeral
  | .string pieces => writtenString pieces
  | .array items => '[' :: writtenItems items ++ [']']
  | .object members => '\x7b' :: writtenMembers members ++ ['\x7d']

def writtenItems : List Json → List Char
  | [] => []
  | [item] => written item
  | item :: rest => written item ++ ',' :: writtenItems rest

def writtenMembers : List (List Piece × Json) → List Char
  | [] => []
  | [(name, value)] => writtenString name ++ ':' :: written value
  | (name, value) :: rest =>
    writtenString name ++ ':' :: written value ++ ',' :: writtenMembers rest

end

def compact (value : Json) : String := String.ofList value.written

end TxLoad.Json
