import TxLoad.Text.Digit
import TxLoad.Text.Numeral

/-! # JSON values as they are written

Numbers keep their literal and strings the way in which each character is written, because readers
differ in what they make of them: a reader that skips a string accepts any escape, one that needs
its text refuses half of a surrogate pair. Members keep their order, and a name may occur twice.
-/

namespace TxLoad

namespace Json

/-- A number: sign, digits, digits after the point, and the exponent's sign and digits. -/
structure Numeral where
  negative : Bool
  whole : List Char
  fraction : List Char
  exponent : Option (Bool × List Char)
  deriving DecidableEq, Repr, Inhabited

/-- One written character of a string. -/
inductive Piece
  | literal (c : Char)
  | escape (c : Char)
  /-- Four hexadecimal digits, a unit of UTF-16. -/
  | unit (value : Nat)
  deriving DecidableEq, Repr, Inhabited

end Json

inductive Json
  | null
  | bool (value : Bool)
  | number (numeral : Json.Numeral)
  | string (pieces : List Json.Piece)
  | array (items : List Json)
  | object (members : List (List Json.Piece × Json))
  deriving Repr, Inhabited

namespace Json

def isHighSurrogate (unit : Nat) : Bool := 0xD800 ≤ unit && unit ≤ 0xDBFF

def isLowSurrogate (unit : Nat) : Bool := 0xDC00 ≤ unit && unit ≤ 0xDFFF

/-- The text that the pieces stand for; nothing if half of a surrogate pair stands alone. -/
def textOf? : List Piece → Option (List Char)
  | [] => some []
  | .literal c :: rest => (c :: ·) <$> textOf? rest
  | .escape c :: rest => (c :: ·) <$> textOf? rest
  | .unit high :: .unit low :: rest =>
    if isHighSurrogate high && isLowSurrogate low then
      (Char.ofNat (0x10000 + (high - 0xD800) * 0x400 + (low - 0xDC00)) :: ·) <$> textOf? rest
    else if isHighSurrogate high || isLowSurrogate high then none
    else (Char.ofNat high :: ·) <$> textOf? (.unit low :: rest)
  | .unit unit :: rest =>
    if isHighSurrogate unit || isLowSurrogate unit then none
    else (Char.ofNat unit :: ·) <$> textOf? rest

def Piece.isLiteral : Piece → Bool
  | .literal _ => true
  | _ => false

/-- The text of a string that is written without escapes. -/
def literalText? (pieces : List Piece) : Option String :=
  if pieces.all Piece.isLiteral then String.ofList <$> textOf? pieces else none

def pieces (text : String) : List Piece := text.toList.map .literal

/-- The string with this text. -/
def ofText (text : String) : Json := .string (pieces text)

def ofNat (n : Nat) : Json := .number ⟨false, Nat.toDigits 10 n, [], none⟩

def ofMembers (members : List (String × Json)) : Json :=
  .object (members.map fun (name, value) => (pieces name, value))

/-- The text of a string value. -/
def text? : Json → Option String
  | .string pieces => String.ofList <$> textOf? pieces
  | _ => none

/-- The number of an integer literal. A negative zero is not an integer. -/
def Numeral.int? (n : Numeral) : Option Int :=
  if n.fraction.isEmpty && n.exponent.isNone then
    match Text.digitsValue? n.whole with
    | some 0 => if n.negative then none else some 0
    | some value => some (if n.negative then -value else value)
    | none => none
  else none

def int? : Json → Option Int
  | .number numeral => numeral.int?
  | _ => none

/-- The number of an integer literal from zero to less than `bound`. -/
def below? (bound : Nat) (value : Json) : Option Nat :=
  match value.int? with
  | some (.ofNat n) => if n < bound then some n else none
  | _ => none

mutual

/-- How many arrays and objects stand inside each other. -/
def depth : Json → Nat
  | .array items => depthOfItems items + 1
  | .object members => depthOfMembers members + 1
  | _ => 0

def depthOfItems : List Json → Nat
  | [] => 0
  | item :: rest => max (depth item) (depthOfItems rest)

def depthOfMembers : List (List Piece × Json) → Nat
  | [] => 0
  | (_, value) :: rest => max (depth value) (depthOfMembers rest)

end

/-! ## Members -/

/-- The values of the members with this name, in their order. -/
def valuesOf (name : String) (members : List (List Piece × Json)) : List Json :=
  members.filterMap fun (key, value) => if textOf? key = some name.toList then some value else none

/-- The names of all members can be read as text. -/
def namesReadable (members : List (List Piece × Json)) : Bool :=
  members.all fun (key, _) => (textOf? key).isSome

/-- What is known of a member that should occur at most once. -/
inductive Occurrence
  | absent
  | once (value : Json)
  | repeated

def occurrence (name : String) (members : List (List Piece × Json)) : Occurrence :=
  match valuesOf name members with
  | [] => .absent
  | [value] => .once value
  | _ => .repeated

end Json

end TxLoad
