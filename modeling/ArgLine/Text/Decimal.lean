import ArgLine.Text.Bytes

/-!
# ArgLine.Text.Decimal

Numbers as text: decimal without leading zeros, a minus sign in front of a
negative number, and lower-case hexadecimal of a chosen width.
-/

namespace ArgLine

namespace Decimal

/-- A natural number in decimal, without leading zeros. -/
def ofNat (n : Nat) : Bytes := (Nat.toDigits 10 n).map Char.toUInt8

/-- An integer in decimal, with a minus sign if it is negative. -/
def ofInt : Int → Bytes
  | .ofNat n => ofNat n
  | .negSucc n => ascii "-" ++ ofNat (n + 1)

/-- The value of a row of decimal digits, most significant first. -/
def value? (digits : Bytes) : Option Nat :=
  digits.foldlM (fun n b => if 48 ≤ b ∧ b ≤ 57 then some (10 * n + (b.toNat - 48)) else none) 0

/-- The integer that a text of an optional sign and at least one digit denotes. -/
def toInt? : Bytes → Option Int
  | [] => none
  | 45 :: digits => if digits = [] then none else (value? digits).map fun n => -(n : Int)
  | 43 :: digits => if digits = [] then none else (value? digits).map fun n => (n : Int)
  | digits => (value? digits).map fun n => (n : Int)

end Decimal

namespace Hexadecimal

/-- The digits of a number in base 16, lower case, without leading zeros. -/
def ofNat (n : Nat) : Bytes := (Nat.toDigits 16 n).map Char.toUInt8

/-- The digits of a number in base 16, lower case, at least `width` of them. -/
def padded (width n : Nat) : Bytes :=
  List.replicate (width - (ofNat n).length) (48 : UInt8) ++ ofNat n

/-- The value of a hexadecimal digit of either case. -/
def digit? (b : UInt8) : Option Nat :=
  if 48 ≤ b ∧ b ≤ 57 then some (b.toNat - 48)
  else if 97 ≤ b ∧ b ≤ 102 then some (b.toNat - 87)
  else if 65 ≤ b ∧ b ≤ 70 then some (b.toNat - 55)
  else none

/-- The value of a row of hexadecimal digits, most significant first. -/
def value? (digits : Bytes) : Option Nat :=
  digits.foldlM (fun n b => (digit? b).map (16 * n + ·)) 0

end Hexadecimal

end ArgLine
