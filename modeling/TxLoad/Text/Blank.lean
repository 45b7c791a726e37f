/-! # Blank text

A blank character is one with the Unicode property `White_Space`.
-/

namespace TxLoad.Text

/-- The ranges of the property `White_Space`. -/
def blankRanges : List (Nat × Nat) :=
  [(0x09, 0x0D), (0x20, 0x20), (0x85, 0x85), (0xA0, 0xA0), (0x1680, 0x1680), (0x2000, 0x200A),
    (0x2028, 0x2029), (0x202F, 0x202F), (0x205F, 0x205F), (0x3000, 0x3000)]

def isBlankChar (c : Char) : Bool := blankRanges.any fun (lo, hi) => lo ≤ c.toNat && c.toNat ≤ hi

/-- All characters are blank; the empty text is blank too. -/
def isBlank (s : String) : Bool := s.toList.all isBlankChar

/-- The text without the blank characters at its two ends. -/
def trim (s : String) : String :=
  String.ofList ((s.toList.dropWhile isBlankChar).reverse.dropWhile isBlankChar).reverse

/-- The text unless it is blank. -/
def nonBlank (s : Option String) : Option String := s.filter fun t => !isBlank t

end TxLoad.Text
