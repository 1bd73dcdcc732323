import ArgLine.Fault

/-!
# ArgLine.Record.Basic

A record is a flag, a value and a label.  It counts as true when its flag is
not zero, whatever else it holds.

1. The value is an integer of one of eleven types, a text, a truth value, a
   64-bit float or a list of texts.
2. An integral record holds an integer, and is of another kind than a record
   of the same integer.
3. Records of different kinds, or with values of different types, differ.
   Otherwise they are equal when flags, values and labels are.  Floats are
   compared as numbers, so that NaN differs from itself and the two zeros are
   equal.
4. Records of lists cannot be compared with each other at all.
-/

namespace ArgLine

/-- The types of integers. -/
inductive IntType where
  | int | int8 | int16 | int32 | int64
  | uint | uint8 | uint16 | uint32 | uint64
  /-- Unsigned, as wide as an address. -/
  | address
  deriving DecidableEq, Repr

namespace IntType

/-- The width in bits. -/
def bits : IntType → Nat
  | int8 | uint8 => 8
  | int16 | uint16 => 16
  | int32 | uint32 => 32
  | int | int64 | uint | uint64 | address => 64

/-- Whether there are negative values. -/
def signed : IntType → Bool
  | int | int8 | int16 | int32 | int64 => true
  | uint | uint8 | uint16 | uint32 | uint64 | address => false

/-- Whether a number is a value of the type. -/
def Holds (t : IntType) (n : Int) : Prop :=
  if t.signed then -Int.pow 2 (t.bits - 1) ≤ n ∧ n < Int.pow 2 (t.bits - 1)
  else 0 ≤ n ∧ n < Int.pow 2 t.bits

instance (t : IntType) (n : Int) : Decidable (t.Holds n) := by
  unfold Holds
  infer_instance

end IntType

/-- An integer with its type. -/
structure Integer where
  type : IntType
  value : Int
  deriving DecidableEq, Repr

/-- What a record can hold. -/
inductive Payload where
  | integer (n : Integer)
  | text (t : Bytes)
  | flag (b : Bool)
  /-- A 64-bit float, by its bits. -/
  | float (bits : UInt64)
  /-- A list of texts; no list at all is not the empty list. -/
  | texts (list : Option (List Bytes))
  deriving DecidableEq, Repr

/-- The types of what a record can hold. -/
inductive PayloadType where
  | integer (t : IntType)
  | text
  | flag
  | float
  | texts
  deriving DecidableEq, Repr

/-- The type of a value. -/
def Payload.type : Payload → PayloadType
  | integer n => .integer n.type
  | text _ => .text
  | flag _ => .flag
  | float _ => .float
  | texts _ => .texts

/-- A flag, a value and a label. -/
structure Record (α : Type) where
  flag : Int64
  value : α
  label : Bytes
  deriving DecidableEq, Repr

/-- A record counts as true when its flag is not zero. -/
def Record.truthy (r : Record α) : Bool := r.flag != 0

/-! ## Floats by their bits -/

namespace Float64

/-- Whether the bits are those of a NaN: all exponent bits set and some fraction bit. -/
def isNaN (bits : UInt64) : Bool := (bits &&& 0x7FFFFFFFFFFFFFFF) > 0x7FF0000000000000

/-- Whether the bits are those of a zero of either sign. -/
def isZero (bits : UInt64) : Bool := (bits &&& 0x7FFFFFFFFFFFFFFF) == 0

/-- Whether two floats are the same number.  Apart from NaN and zero, different bits are different
numbers. -/
def same (x y : UInt64) : Bool :=
  !isNaN x && !isNaN y && (x == y || (isZero x && isZero y))

end Float64

/-! ## Equality -/

/-- Whether two values are of one type and equal; lists cannot be compared. -/
def Payload.compare : Payload → Payload → Except Fault Bool
  | .integer m, .integer n => .ok (m == n)
  | .text s, .text t => .ok (s == t)
  | .flag b, .flag c => .ok (b == c)
  | .float x, .float y => .ok (Float64.same x y)
  | .texts _, .texts _ => .error .uncomparable
  | _, _ => .ok false

/-- A record of either kind. -/
inductive AnyRecord where
  | plain (r : Record Payload)
  | integral (r : Record Integer)
  deriving DecidableEq, Repr

namespace AnyRecord

/-- The record that is held, with an integral one seen as an ordinary one. -/
def toRecord : AnyRecord → Record Payload
  | plain r => r
  | integral r => ⟨r.flag, .integer r.value, r.label⟩

/-- Whether two records are equal. -/
def compare : AnyRecord → AnyRecord → Except Fault Bool
  | plain r, plain s => do
    let same ← r.value.compare s.value
    return same && r.flag == s.flag && r.label == s.label
  | integral r, integral s =>
    .ok (r.value == s.value && r.flag == s.flag && r.label == s.label)
  | _, _ => .ok false

end AnyRecord

end ArgLine
