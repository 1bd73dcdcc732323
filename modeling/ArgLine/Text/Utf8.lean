import ArgLine.Text.Bytes

/-!
# ArgLine.Text.Utf8

A byte string read as UTF-8, leniently: every byte belongs either to a
character in its shortest form or is a stray byte of its own.

1. A character takes one to four bytes; the first tells how many.
2. The shortest form is required, surrogates and values past the last code
   point are refused.
3. A byte that starts no character is stray, and reading goes on at the byte
   after it.

`pieces` gives that reading; `Piece.bytes` writes a piece back.
-/

namespace ArgLine

namespace Utf8

/-- One step of a lenient reading. -/
inductive Piece where
  /-- A character that was written in its shortest form. -/
  | scalar (c : Char)
  /-- A byte that belongs to no character. -/
  | stray (b : UInt8)
  deriving DecidableEq, Repr

/-- The bytes a piece was read from. -/
def Piece.bytes : Piece → Bytes
  | .scalar c => String.utf8EncodeChar c
  | .stray b => [b]

/-- Whether a byte may follow the first byte of a character. -/
def continues (b : UInt8) : Bool := 0x80 ≤ b && b < 0xC0

/-- The code point `n` as a character, if it is one and could not be written in fewer bytes. -/
def scalarFrom (least n : Nat) : Option Char :=
  if least ≤ n ∧ n.isValidChar then some (Char.ofNat n) else none

/-- The character that a text starts with, if it starts with one. -/
def leading? : Bytes → Option Char
  | [] => none
  | b :: rest =>
    if b < 0x80 then some (Char.ofNat b.toNat)
    else if b < 0xC0 then none
    else if b < 0xE0 then
      match rest with
      | c :: _ =>
        if continues c then scalarFrom 0x80 (b.toNat % 32 * 64 + c.toNat % 64) else none
      | _ => none
    else if b < 0xF0 then
      match rest with
      | c :: d :: _ =>
        if continues c && continues d then
          scalarFrom 0x800 ((b.toNat % 16 * 64 + c.toNat % 64) * 64 + d.toNat % 64)
        else none
      | _ => none
    else if b < 0xF8 then
      match rest with
      | c :: d :: e :: _ =>
        if continues c && continues d && continues e then
          scalarFrom 0x10000
            (((b.toNat % 8 * 64 + c.toNat % 64) * 64 + d.toNat % 64) * 64 + e.toNat % 64)
        else none
      | _ => none
    else none

/-- The reading of a text of which `skip` bytes are left of a character already read. -/
def piecesAfter : Nat → Bytes → List Piece
  | _, [] => []
  | skip + 1, _ :: rest => piecesAfter skip rest
  | 0, b :: rest =>
    match leading? (b :: rest) with
    | some c => .scalar c :: piecesAfter (c.utf8Size - 1) rest
    | none => .stray b :: piecesAfter 0 rest

/-- The lenient reading of a text. -/
def pieces (text : Bytes) : List Piece := piecesAfter 0 text

end Utf8

end ArgLine
