import ArgLine.Text.Decimal
import ArgLine.Text.Utf8

/-!
# ArgLine.Text.Literal

What a quoted literal in source text denotes.

1. A raw literal stands in backquotes, holds none, and denotes its content
   without carriage returns.
2. An interpreted literal stands in double quotes and holds no newline and no
   bare double quote.  It denotes what its characters and escapes denote: the
   letters `a b f n r t v`, the backslash and the quote; `x` and two
   hexadecimal digits or three octal digits up to 377 for a byte; `u` and four
   or `U` and eight hexadecimal digits for a code point.
3. A character literal stands in single quotes, holds exactly one character or
   escape, and escapes the single quote instead of the double quote.
4. Anything else denotes nothing.

A stray byte in an interpreted literal denotes the replacement character.
-/

namespace ArgLine

namespace Literal

/-- The byte that a letter after a backslash denotes in a literal that stands in `quote`s. -/
def letterByte? (quote letter : UInt8) : Option UInt8 :=
  match letter.toNat with
  | 97 => some 7
  | 98 => some 8
  | 102 => some 12
  | 110 => some 10
  | 114 => some 13
  | 116 => some 9
  | 118 => some 11
  | 92 => some 92
  | _ => if letter = quote then some letter else none

/-- The value of an octal digit. -/
def octal? (b : UInt8) : Option Nat :=
  if 48 ≤ b ∧ b ≤ 55 then some (b.toNat - 48) else none

/-- The encoding of a code point, if it is a character. -/
def codePoint? (n : Nat) : Option Bytes :=
  if n.isValidChar then some (String.utf8EncodeChar (Char.ofNat n)) else none

/-- What the escape after a backslash denotes, and how many bytes it takes after the backslash. -/
def escape? (quote : UInt8) : Bytes → Option (Bytes × Nat)
  | [] => none
  | 120 :: rest =>
    if 2 ≤ rest.length then
      (Hexadecimal.value? (rest.take 2)).map fun n => ([n.toUInt8], 3)
    else none
  | 117 :: rest =>
    if 4 ≤ rest.length then
      (Hexadecimal.value? (rest.take 4)).bind codePoint? |>.map (·, 5)
    else none
  | 85 :: rest =>
    if 8 ≤ rest.length then
      (Hexadecimal.value? (rest.take 8)).bind codePoint? |>.map (·, 9)
    else none
  | b :: rest =>
    match octal? b, rest with
    | some x, c :: d :: _ =>
      match octal? c, octal? d with
      | some y, some z =>
        if 64 * x + 8 * y + z ≤ 255 then some ([(64 * x + 8 * y + z).toUInt8], 3) else none
      | _, _ => none
    | some _, _ => none
    | none, _ => (letterByte? quote b).map fun v => ([v], 1)

/-- What the first character or escape of a literal's content denotes, and how many bytes it takes. -/
def first? (quote : UInt8) : Bytes → Option (Bytes × Nat)
  | [] => none
  | b :: rest =>
    if b = quote ∨ b = Bytes.newline then none
    else if b = 92 then (escape? quote rest).map fun e => (e.1, e.2 + 1)
    else match Utf8.leading? (b :: rest) with
      | some c => some (String.utf8EncodeChar c, c.utf8Size)
      | none => some (String.utf8EncodeChar (Char.ofNat 0xFFFD), 1)

/-- What the content of an interpreted literal denotes, `skip` bytes of which are already read. -/
def interpretedAfter? : Nat → Bytes → Option Bytes
  | _, [] => some []
  | skip + 1, _ :: rest => interpretedAfter? skip rest
  | 0, b :: rest =>
    match first? 34 (b :: rest) with
    | some (denoted, width) => (interpretedAfter? (width - 1) rest).map (denoted ++ ·)
    | none => none

/-- What the content of an interpreted literal denotes. -/
def interpreted? (content : Bytes) : Option Bytes := interpretedAfter? 0 content

/-- What the content of a raw literal denotes. -/
def raw? (content : Bytes) : Option Bytes :=
  if content.contains 96 then none else some (content.filter (· ≠ 13))

/-- What the content of a character literal denotes. -/
def character? (content : Bytes) : Option Bytes :=
  match first? 39 content with
  | some (denoted, width) => if width = content.length then some denoted else none
  | none => none

/-- The content of a literal that stands in a pair of `quote`s. -/
def content? : Bytes → Option (UInt8 × Bytes)
  | quote :: rest =>
    match rest.getLast? with
    | some last => if last = quote then some (quote, rest.dropLast) else none
    | none => none
  | [] => none

/-- What a literal denotes. -/
def unquote? (literal : Bytes) : Option Bytes :=
  match content? literal with
  | some (34, content) => interpreted? content
  | some (96, content) => raw? content
  | some (39, content) => character? content
  | _ => none

end Literal

end ArgLine
