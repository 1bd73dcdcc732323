import ArgLine.Text.Quoted

/-!
# ArgLine.Url.Address

Internet addresses as text.

1. The first dot, colon or percent sign decides what a text has to be: with a
   dot it is four fields, with a colon eight groups.
2. Four fields are numbers up to 255 without leading zeros, with dots between
   them.
3. Eight groups are one to four hexadecimal digits each, with colons between
   them.  One `::` may stand for the groups of zeros that are left out, at least
   one of them; four fields may stand for the last two groups.
4. After eight groups a zone may follow: a percent sign and some text.

A text that breaks a rule is refused with the first problem met from the left,
and for most problems with the rest of the text from there.
-/

namespace ArgLine

/-- How an address is written. -/
inductive AddressForm where
  | fields
  | groups
  deriving DecidableEq, Repr

/-- What is wrong with an address. -/
inductive AddressProblem where
  /-- No dot, colon or percent sign. -/
  | unrecognized
  /-- A percent sign before any dot or colon. -/
  | onlyZone
  | leadingZero
  | largeField
  | emptyField
  | manyFields
  | fewFields
  /-- Neither digit nor dot among fields. -/
  | fieldByte
  | emptyZone
  | longGroup
  | emptyGroup
  /-- Fields in place of other groups than the last two. -/
  | earlyFields
  /-- Fields where less than two groups are left. -/
  | noRoom
  /-- Neither digit nor colon among groups. -/
  | groupByte
  | finalColon
  /-- A second `::`. -/
  | secondGap
  | manyGroups
  | fewGroups
  /-- A `::` that stands for nothing. -/
  | idleGap
  deriving DecidableEq, Repr

/-- The text of a problem. -/
def AddressProblem.text : AddressProblem → Bytes
  | unrecognized => ascii "unable to parse IP"
  | onlyZone => ascii "missing IPv6 address"
  | leadingZero => ascii "IPv4 field has octet with leading zero"
  | largeField => ascii "IPv4 field has value >255"
  | emptyField => ascii "IPv4 field must have at least one digit"
  | manyFields => ascii "IPv4 address too long"
  | fewFields => ascii "IPv4 address too short"
  | fieldByte => ascii "unexpected character"
  | emptyZone => ascii "zone must be a non-empty string"
  | longGroup => ascii "each group must have 4 or less digits"
  | emptyGroup => ascii "each colon-separated field must have at least one digit"
  | earlyFields => ascii "embedded IPv4 address must replace the final 2 fields of the address"
  | noRoom => ascii "too many hex fields to fit an embedded IPv4 at the end of the address"
  | groupByte => ascii "unexpected character, want colon"
  | finalColon => ascii "colon must be followed by more characters"
  | secondGap => ascii "multiple :: in address"
  | manyGroups => ascii "trailing garbage after address"
  | fewGroups => ascii "address string too short"
  | idleGap => ascii "the :: must expand to at least one field of zeros"

/-- Why a text is no address. -/
structure AddressError where
  problem : AddressProblem
  /-- The text from the problem on, empty for a problem that has no place. -/
  rest : Bytes
  deriving DecidableEq, Repr

/-- The text of a refusal. -/
def AddressError.message (e : AddressError) (address : Bytes) : Bytes :=
  ascii "ParseAddr(" ++ Quoted.quote address ++ ascii "): " ++ e.problem.text ++
    (if e.rest = [] then [] else ascii " (at " ++ Quoted.quote e.rest ++ ascii ")")

namespace Address

/-- The number of fields. -/
def fieldCount : Nat := 4

/-- The number of groups. -/
def groupCount : Nat := 8

/-- The most digits of a group. -/
def groupDigits : Nat := 4

/-- The largest value of a field. -/
def maxField : Nat := 255

/-- Reads fields after `done` of them, in the midst of one with the value `value?`, absent before
its first digit. -/
def readFields (done : Nat) (value? : Option Nat) : Bytes → Except AddressError Unit
  | [] => if done + 1 < fieldCount then .error ⟨.fewFields, []⟩ else .ok ()
  | b :: rest =>
    if 48 ≤ b ∧ b ≤ 57 then
      let value := 10 * value?.getD 0 + (b.toNat - 48)
      if value? = some 0 then .error ⟨.leadingZero, []⟩
      else if value > maxField then .error ⟨.largeField, []⟩
      else readFields done (some value) rest
    else if b = 46 then
      if value? = none ∨ rest = [] then .error ⟨.emptyField, b :: rest⟩
      else if done + 1 = fieldCount then .error ⟨.manyFields, []⟩
      else readFields (done + 1) none rest
    else .error ⟨.fieldByte, b :: rest⟩

/-- Judges a text that ended with `left` groups still missing, by whether it has a `::`. -/
def finish (left : Nat) (gap : Bool) : Except AddressError Unit :=
  if left = 0 then (if gap then .error ⟨.idleGap, []⟩ else .ok ())
  else if gap then .ok () else .error ⟨.fewGroups, []⟩

/-- Reads groups while some are left to read, knowing whether there was a `::`. -/
def readGroups (left : Nat) (gap : Bool) (text : Bytes) : Except AddressError Unit :=
  match left with
  | 0 => if text ≠ [] then .error ⟨.manyGroups, text⟩ else finish 0 gap
  | left + 1 =>
    let isDigit := fun b => (Hexadecimal.digit? b).isSome
    let digits := text.takeWhile isDigit
    if digits.length > groupDigits then .error ⟨.longGroup, text⟩
    else if digits = [] then .error ⟨.emptyGroup, text⟩
    else match text.dropWhile isDigit with
      | [] => finish left gap
      | 46 :: _ =>
        if gap = false ∧ left ≠ 1 then .error ⟨.earlyFields, text⟩
        else if left = 0 then .error ⟨.noRoom, text⟩
        else do
          readFields 0 none text
          finish (left - 1) gap
      | [58] => .error ⟨.finalColon, [58]⟩
      | 58 :: 58 :: more =>
        if gap then .error ⟨.secondGap, 58 :: more⟩
        else if more = [] then finish left true
        else readGroups left true more
      | 58 :: more => readGroups left gap more
      | rest => .error ⟨.groupByte, rest⟩

/-- Reads eight groups, the first of which may be left out. -/
def readAllGroups : Bytes → Except AddressError Unit
  | [58, 58] => .ok ()
  | 58 :: 58 :: more => readGroups groupCount true more
  | text => readGroups groupCount false text

/-- Reads an address, and says how it is written. -/
def read (text : Bytes) : Except AddressError AddressForm :=
  match text.find? fun b => b = 46 ∨ b = 58 ∨ b = 37 with
  | some 46 => do
    readFields 0 none text
    return .fields
  | some 58 =>
    match Bytes.cut 37 text with
    | (_, some []) => .error ⟨.emptyZone, []⟩
    | (groups, _) => do
      readAllGroups groups
      return .groups
  | some _ => .error ⟨.onlyZone, []⟩
  | none => .error ⟨.unrecognized, []⟩

end Address

end ArgLine
