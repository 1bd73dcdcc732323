import ArgLine.Text.Decimal

/-!
# ArgLine.Url.Percent

Percent escapes, and the sets of bytes that stand in a URL without one.

Each part of a URL has its own set.  Writing a part escapes every byte outside
the set as `%` and two upper-case digits; reading undoes every escape, whether
it was needed or not, and refuses a `%` without two digits.
-/

namespace ArgLine

namespace Percent

/-- Whether a byte is one of the characters of a constant. -/
def among (s : String) (b : UInt8) : Bool := (ascii s).contains b

/-- ASCII letters. -/
def isLetter (b : UInt8) : Bool := (65 ≤ b && b ≤ 90) || (97 ≤ b && b ≤ 122)

/-- ASCII digits. -/
def isDigit (b : UInt8) : Bool := 48 ≤ b && b ≤ 57

/-- Bytes that mean themselves everywhere. -/
def unreserved (b : UInt8) : Bool := isLetter b || isDigit b || among "-_.~" b

/-- Bytes that a path shows as they are. -/
def pathSafe (b : UInt8) : Bool := unreserved b || among "$&+,/:;=@" b

/-- Bytes that a user name or password shows as they are. -/
def userSafe (b : UInt8) : Bool := unreserved b || among "$&+,;=" b

/-- Bytes that a fragment shows as they are. -/
def fragmentSafe (b : UInt8) : Bool := unreserved b || among "$&+,/:;=?@!()*" b

/-- Bytes that a host shows as they are. -/
def hostSafe (b : UInt8) : Bool := unreserved b || among "!$&'()*+,;=:[]<>\"" b

/-- Bytes that a written part may hold: those of its set, escapes, and some more punctuation. -/
def mayStand (safe : UInt8 → Bool) (b : UInt8) : Bool := safe b || among "!$&'()*+,;=:@[]%" b

/-- A digit in base 16, upper case. -/
def upperDigit (n : Nat) : UInt8 := if n < 10 then (48 + n).toUInt8 else (55 + n).toUInt8

/-- A byte, escaped if it is outside the set. -/
def encodeByte (safe : UInt8 → Bool) (b : UInt8) : Bytes :=
  if safe b then [b] else [37, upperDigit (b.toNat / 16), upperDigit (b.toNat % 16)]

/-- A text with every byte outside the set escaped. -/
def encode (safe : UInt8 → Bool) (text : Bytes) : Bytes := text.flatMap (encodeByte safe)

/-- A text with its escapes undone, or the first `%` without two digits and what follows it, up to
two bytes. -/
def decode : Bytes → Except Bytes Bytes
  | [] => .ok []
  | b :: rest =>
    if b = 37 then
      match rest with
      | c :: d :: more =>
        match Hexadecimal.digit? c, Hexadecimal.digit? d with
        | some x, some y => (decode more).map ((16 * x + y).toUInt8 :: ·)
        | _, _ => .error [b, c, d]
      | _ => .error (b :: rest)
    else (decode rest).map (b :: ·)

/-- How a part that was written as `text` is shown again: as it was written if every byte may
stand there, else decoded and escaped anew. -/
def shown (safe : UInt8 → Bool) (text : Bytes) : Bytes :=
  if text.all (mayStand safe) then text
  else match decode text with
    | .ok plain => encode safe plain
    | .error _ => text

end Percent

end ArgLine
