import TxLoad.Bytes
import TxLoad.Text.Glyph

/-! # Quoted text

Text between quotes, with a backslash before the quote and the backslash, short escapes for the
common control characters, and `\u` with the code point for every other character that has no glyph
of its own. The quote of the other kind stands as it is.
-/

namespace TxLoad.Text

/-- How one character is written between quotes of the kind `quote`. -/
def quotedChar (quote c : Char) : List Char :=
  if c = quote || c = '\\' then ['\\', c]
  else if c = '\x00' then ['\\', '0']
  else if c = '\t' then ['\\', 't']
  else if c = '\r' then ['\\', 'r']
  else if c = '\n' then ['\\', 'n']
  else if isGlyphless c then "\\u\x7b".toList ++ Nat.toDigits 16 c.toNat ++ ['\x7d']
  else [c]

def quoted (s : String) : String :=
  "\"" ++ String.ofList (s.toList.flatMap (quotedChar '"')) ++ "\""

def quotedSingle (c : Char) : String :=
  "'" ++ String.ofList (quotedChar '\'' c) ++ "'"

end TxLoad.Text
