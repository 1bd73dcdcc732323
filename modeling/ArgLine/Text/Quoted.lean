import ArgLine.Text.Decimal
import ArgLine.Text.Printable
import ArgLine.Text.Utf8

/-!
# ArgLine.Text.Quoted

Text in double quotes, for diagnostics.

1. A quote and a backslash get a backslash.
2. Seven controls have a letter: `\a \b \f \n \r \t \v`.
3. Any other control below the space, and delete, is `\x` and two digits; so is
   a stray byte.
4. A printable character stands for itself; any other is `\u` and four digits,
   or `\U` and eight past the first plane.

Digits are hexadecimal, lower case.
-/

namespace ArgLine

namespace Quoted

/-- The letter that stands for a control after a backslash. -/
def letter? (c : Char) : Option UInt8 :=
  match c.toNat with
  | 7 => some 97
  | 8 => some 98
  | 12 => some 102
  | 10 => some 110
  | 13 => some 114
  | 9 => some 116
  | 11 => some 118
  | _ => none

/-- A byte as `\x` and two digits. -/
def hexByte (n : Nat) : Bytes := ascii "\\x" ++ Hexadecimal.padded 2 n

/-- A character between quotes. -/
def escapeChar (c : Char) : Bytes :=
  if c = '"' ∨ c = '\\' then ascii "\\" ++ String.utf8EncodeChar c
  else match letter? c with
    | some l => ascii "\\" ++ [l]
    | none =>
      if c.toNat < 0x20 ∨ c.toNat = 0x7F then hexByte c.toNat
      else if Printable.isPrintable c then String.utf8EncodeChar c
      else if c.toNat < 0x10000 then ascii "\\u" ++ Hexadecimal.padded 4 c.toNat
      else ascii "\\U" ++ Hexadecimal.padded 8 c.toNat

/-- A piece of a text between quotes. -/
def escape : Utf8.Piece → Bytes
  | .scalar c => escapeChar c
  | .stray b => hexByte b.toNat

/-- A text in double quotes. -/
def quote (text : Bytes) : Bytes :=
  ascii "\"" ++ (Utf8.pieces text).flatMap escape ++ ascii "\""

end Quoted

end ArgLine
