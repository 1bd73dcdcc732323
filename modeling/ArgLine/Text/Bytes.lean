/-!
# ArgLine.Text.Bytes

Text as the program meets it.  Arguments, environment values, file names and
log messages are byte strings that need not be valid UTF-8, so all text is a
list of bytes.

* `ascii` writes a constant;
* `cut`, `cutLast` and `split` divide a text at a byte.
-/

namespace ArgLine

/-- A text: any bytes at all. -/
abbrev Bytes := List UInt8

/-- The bytes of a constant written in ASCII. -/
def ascii (s : String) : Bytes := s.toList.map Char.toUInt8

namespace Bytes

/-- The newline byte, which ends a line. -/
def newline : UInt8 := 10

/-- Whether `part` stands somewhere in the text. -/
def hasInfix (part : Bytes) : Bytes → Bool
  | [] => part.isPrefixOf []
  | b :: rest => part.isPrefixOf (b :: rest) || hasInfix part rest

/-- Puts `data` over a text from a place on; the text keeps its length (`length_overwrite`). -/
def overwrite (text : Bytes) (place : Nat) (data : Bytes) : Bytes :=
  text.take place ++ data.take (text.length - place) ++ text.drop (place + data.length)

@[simp] theorem length_overwrite (text : Bytes) (place : Nat) (data : Bytes) :
    (overwrite text place data).length = text.length := by
  simp [overwrite]
  omega

/-! ## Dividing at a byte -/

/-- What stands before the first `sep`, and what stands after it if there is one. -/
def cut (sep : UInt8) : Bytes → Bytes × Option Bytes
  | [] => ([], none)
  | b :: rest =>
    if b = sep then ([], some rest)
    else ((b :: (cut sep rest).1), (cut sep rest).2)

/-- What stands before and after the last `sep`, if there is one. -/
def cutLast (sep : UInt8) : Bytes → Option (Bytes × Bytes)
  | [] => none
  | b :: rest =>
    match cutLast sep rest with
    | some (before, after) => some (b :: before, after)
    | none => if b = sep then some ([], rest) else none

/-- The parts between the separators, one more than there are separators. -/
def split (sep : UInt8) : Bytes → List Bytes
  | [] => [[]]
  | b :: rest =>
    if b = sep then [] :: split sep rest
    else match split sep rest with
      | [] => [[b]]
      | part :: parts => (b :: part) :: parts

/-- A text that was cut is the two parts with the separator between them. -/
theorem append_cut (sep : UInt8) (text : Bytes) :
    (cut sep text).1 ++ ((cut sep text).2.elim [] (sep :: ·)) = text := by
  induction text with
  | nil => rfl
  | cons b rest ih =>
    by_cases h : b = sep
    · simp [cut, h]
    · simp [cut, h, ih]

end Bytes

end ArgLine
