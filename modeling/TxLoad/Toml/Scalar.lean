import TxLoad.Binary64.Reader
import TxLoad.Text.Digit
import TxLoad.Text.Numeral

/-! # The single values of a settings document

Strings between quotes of two kinds, on one line or between three quotes on several; integers in
four bases; floating-point numbers; dates and times. Every reader gives what it read and the rest.
-/

namespace TxLoad.Toml

abbrev Reader (α : Type) := List Char → Option (α × List Char)

def isBlank (c : Char) : Bool := c = ' ' || c = '\t'

def skipBlanks (text : List Char) : List Char := text.dropWhile isBlank

/-- A printable character, or a tab. -/
def isPlain (c : Char) : Bool := c = '\t' || (0x20 ≤ c.toNat && c.toNat ≠ 0x7F)

/-- The rest after the end of a line. -/
def newline? : List Char → Option (List Char)
  | '\n' :: rest => some rest
  | '\r' :: '\n' :: rest => some rest
  | _ => none

/-- The rest after the end of a line at the front, or the whole text. -/
def dropNewline (text : List Char) : List Char := (newline? text).getD text

/-! ## Strings -/

/-- The character with a code point given in hexadecimal digits. -/
def scalar? (digits : List Char) : Option Char := do
  let code ← digits.foldlM (fun n c => (Text.hexDigit? c).map (n * 16 + ·)) 0
  if code < 0xD800 || (0xDFFF < code && code < 0x110000) then some (Char.ofNat code) else none

def shortEscape? (c : Char) : Option Char :=
  if c = 'b' then some '\x08'
  else if c = 't' then some '\t'
  else if c = 'n' then some '\n'
  else if c = 'f' then some '\x0c'
  else if c = 'r' then some '\r'
  else if c = '"' || c = '\\' then some c
  else none

/-- The character of an escape, after the backslash. -/
def readEscape : Reader Char
  | 'u' :: a :: b :: c :: d :: rest => do return (← scalar? [a, b, c, d], rest)
  | 'U' :: a :: b :: c :: d :: e :: f :: g :: h :: rest => do
    return (← scalar? [a, b, c, d, e, f, g, h], rest)
  | c :: rest => do return (← shortEscape? c, rest)
  | [] => none

/-- The rest of a string with escapes, after its opening quote. -/
def readBasic : Nat → Reader (List Char)
  | 0, _ => none
  | fuel + 1, text =>
    match text with
    | [] => none
    | '"' :: rest => some ([], rest)
    | '\\' :: rest => do
      let (c, rest) ← readEscape rest
      let (tail, rest) ← readBasic fuel rest
      return (c :: tail, rest)
    | c :: rest =>
      if isPlain c then do
        let (tail, rest) ← readBasic fuel rest
        return (c :: tail, rest)
      else none

/-- The rest of a string without escapes, after its opening quote. -/
def readLiteral : Reader (List Char)
  | [] => none
  | '\'' :: rest => some ([], rest)
  | c :: rest =>
    if isPlain c then do
      let (tail, rest) ← readLiteral rest
      return (c :: tail, rest)
    else none

/-- Up to two quotes belong to the text; three more close it. -/
def closing? (quote : Char) (text : List Char) : Option (List Char × List Char) :=
  let quotes := (text.takeWhile (· = quote)).length
  if quotes < 3 then none
  else
    let kept := min (quotes - 3) 2
    some (List.replicate kept quote, text.drop (kept + 3))

/-- The rest after a line end that a backslash hides, with all blanks and line ends after it. -/
def hiddenNewline? (text : List Char) : Option (List Char) := do
  let rest ← newline? (skipBlanks text)
  return skipLines rest.length rest
where
  skipLines : Nat → List Char → List Char
    | 0, text => text
    | fuel + 1, text =>
      match newline? (skipBlanks text) with
      | some rest => skipLines fuel rest
      | none => skipBlanks text

/-- The rest of a string over several lines with escapes. -/
def readBasicLines : Nat → Reader (List Char)
  | 0, _ => none
  | fuel + 1, text =>
    match closing? '"' text with
    | some result => some result
    | none =>
      match text with
      | [] => none
      | '\\' :: rest =>
        match hiddenNewline? rest with
        | some rest => readBasicLines fuel rest
        | none => do
          let (c, rest) ← readEscape rest
          let (tail, rest) ← readBasicLines fuel rest
          return (c :: tail, rest)
      | c :: rest =>
        match newline? text with
        | some rest => do
          let (tail, rest) ← readBasicLines fuel rest
          return ('\n' :: tail, rest)
        | none =>
          if isPlain c then do
            let (tail, rest) ← readBasicLines fuel rest
            return (c :: tail, rest)
          else none

/-- The rest of a string over several lines without escapes. -/
def readLiteralLines : Nat → Reader (List Char)
  | 0, _ => none
  | fuel + 1, text =>
    match closing? '\'' text with
    | some result => some result
    | none =>
      match text with
      | [] => none
      | c :: rest =>
        match newline? text with
        | some rest => do
          let (tail, rest) ← readLiteralLines fuel rest
          return ('\n' :: tail, rest)
        | none =>
          if isPlain c then do
            let (tail, rest) ← readLiteralLines fuel rest
            return (c :: tail, rest)
          else none

def readString : Reader String := fun text => do
  let (content, rest) ← match text with
    | '"' :: '"' :: '"' :: rest => readBasicLines (text.length + 1) (dropNewline rest)
    | '"' :: rest => readBasic (text.length + 1) rest
    | '\'' :: '\'' :: '\'' :: rest => readLiteralLines (text.length + 1) (dropNewline rest)
    | '\'' :: rest => readLiteral rest
    | _ => none
  return (String.ofList content, rest)

/-! ## Numbers -/

/-- Digits with single underscores between them; there must be one at least. -/
def readDigits (isDigit : Char → Bool) : Reader (List Char)
  | [] => none
  | c :: rest => if isDigit c then readMore c rest else none
where
  readMore (first : Char) : Reader (List Char)
    | '_' :: c :: rest =>
      if isDigit c then do
        let (digits, rest) ← readMore c rest
        return (first :: digits, rest)
      else none
    | ['_'] => none
    | c :: rest =>
      if isDigit c then do
        let (digits, rest) ← readMore c rest
        return (first :: digits, rest)
      else some ([first], c :: rest)
    | [] => some ([first], [])

def readSign : List Char → List Char × List Char
  | '+' :: rest => (['+'], rest)
  | '-' :: rest => (['-'], rest)
  | rest => ([], rest)

/-- Decimal digits with a sign and without a zero in front of others. -/
def readDecimal : Reader (List Char) := fun text =>
  let (sign, text) := readSign text
  match text with
  | '0' :: rest => some (sign ++ ['0'], rest)
  | _ => do
    let (digits, rest) ← readDigits Char.isDigit text
    return (sign ++ digits, rest)

def decimalValue (text : List Char) : Int :=
  let (sign, digits) := readSign text
  let n : Int := (Text.digitsValue? digits).getD 0
  if sign = ['-'] then -n else n

/-- Digits of a base after its mark. -/
def readBase (base : Nat) : Reader Int := fun text => do
  let isDigit (c : Char) : Bool := ((Text.hexDigit? c).map fun d => decide (d < base)).getD false
  let (digits, rest) ← readDigits isDigit text
  let n : Nat := digits.foldl (fun n c => n * base + (Text.hexDigit? c).getD 0) 0
  if fitsSigned 64 n then some (n, rest) else none

def readInteger : Reader Int
  | '0' :: 'x' :: rest => readBase 16 rest
  | '0' :: 'o' :: rest => readBase 8 rest
  | '0' :: 'b' :: rest => readBase 2 rest
  | text => do
    let (digits, rest) ← readDecimal text
    if fitsSigned 64 (decimalValue digits) then some (decimalValue digits, rest) else none

/-- An exponent, with its mark. -/
def readExponent : Reader (List Char)
  | c :: rest =>
    if c = 'e' || c = 'E' then do
      let (sign, rest) := readSign rest
      let (digits, rest) ← readDigits Char.isDigit rest
      return ('e' :: sign ++ digits, rest)
    else none
  | [] => none

/-- A fraction, with its point, or an exponent, or both. -/
def readFraction : Reader (List Char)
  | '.' :: rest => do
    let (digits, rest) ← readDigits Char.isDigit rest
    match readExponent rest with
    | some (exponent, rest) => return ('.' :: digits ++ exponent, rest)
    | none =>
      match rest with
      | 'e' :: _ | 'E' :: _ => none
      | _ => return ('.' :: digits, rest)
  | text => readExponent text

/-- A name of infinity or of what is no number. -/
def readSpecial : Reader Binary64 := fun text =>
  let (sign, text) := readSign text
  let negative := sign = ['-']
  match text with
  | 'i' :: 'n' :: 'f' :: rest => some (.infinity negative, rest)
  | 'n' :: 'a' :: 'n' :: rest => some (.ofMagnitude negative Binary64.nan.magnitude, rest)
  | _ => none

/-- A floating-point number. One that is too large is refused, unless it is negative. -/
def readReal : Reader Binary64 := fun text =>
  match readSpecial text with
  | some result => some result
  | none => do
    let (whole, rest) ← readDecimal text
    let (fraction, rest) ← readFraction rest
    let x ← Binary64.read? (String.ofList (whole ++ fraction))
    if x.isInfinite && !x.negative then none else some (x, rest)

/-! ## Dates and times -/

/-- A number of exactly `count` digits within a range. -/
def readField (count low high : Nat) : Reader Nat := fun text => do
  let digits := text.take count
  let n ← Text.digitsValue? digits
  if digits.length = count && low ≤ n && n ≤ high then some (n, text.drop count) else none

def expect (c : Char) : List Char → Option (List Char)
  | [] => none
  | d :: rest => if c = d then some rest else none

def daysIn (year month : Nat) : Nat :=
  if month = 2 then
    if year % 4 = 0 && (year % 100 ≠ 0 || year % 400 = 0) then 29 else 28
  else if [4, 6, 9, 11].contains month then 30
  else 31

def skipDate? (text : List Char) : Option (List Char) := do
  let (year, rest) ← readField 4 0 9999 text
  let (month, rest) ← readField 2 1 12 (← expect '-' rest)
  let (_, rest) ← readField 2 1 (daysIn year month) (← expect '-' rest)
  return rest

def skipTime? (text : List Char) : Option (List Char) := do
  let (_, rest) ← readField 2 0 23 text
  let (_, rest) ← readField 2 0 59 (← expect ':' rest)
  let (_, rest) ← readField 2 0 60 (← expect ':' rest)
  match rest with
  | '.' :: c :: fraction => if c.isDigit then some (fraction.dropWhile Char.isDigit) else some rest
  | _ => some rest

/-- The rest after an offset; there may be none, but one that begins must be whole. -/
def skipOffset? : List Char → Option (List Char)
  | [] => some []
  | c :: rest =>
    if c = 'Z' || c = 'z' then some rest
    else if c = '+' || c = '-' then do
      let (_, rest) ← readField 2 0 23 rest
      let (_, rest) ← readField 2 0 59 (← expect ':' rest)
      return rest
    else some (c :: rest)

/-- The rest after a date, a time, or both. -/
def skipMoment? (text : List Char) : Option (List Char) :=
  match skipDate? text with
  | none => skipTime? text
  | some rest =>
    match rest with
    | c :: after =>
      if c = 'T' || c = 't' || c = ' ' then
        match skipTime? after with
        | some rest => skipOffset? rest
        | none => some rest
      else some rest
    | [] => some []

end TxLoad.Toml
