import ArgLine.Bindings
import ArgLine.Record.Basic

/-!
# ArgLine.Record.Script

Runs of operations on named records, and what each operation answers.  A step
that fails leaves every record as it was.
-/

namespace ArgLine

namespace Record

/-- Records by name. -/
abbrev Slots := Bindings AnyRecord

/-! ## Data -/

/-- A value as it is given to a step, before its type is known. -/
inductive Datum where
  | missing
  | number (n : Int)
  | text (t : Bytes)
  | flag (b : Bool)
  | list (texts : List Bytes)
  deriving DecidableEq, Repr

/-- The integer that a datum gives: a number or a decimal text, 0 if it is missing. -/
def Datum.int? : Datum → Option Int
  | missing => some 0
  | number n => some n
  | text t => Decimal.toInt? t
  | _ => none

/-- The value of a type that a datum gives.  Integers have to be values of their type, and a float
is given by the sixteen hexadecimal digits of its bits. -/
def Datum.read? (d : Datum) : PayloadType → Option Payload
  | .integer t =>
    match d.int? with
    | some n => if t.Holds n then some (.integer ⟨t, n⟩) else none
    | none => none
  | .text =>
    match d with
    | text t => some (.text t)
    | missing => some (.text [])
    | _ => none
  | .flag =>
    match d with
    | flag b => some (.flag b)
    | missing => some (.flag false)
    | _ => none
  | .float =>
    match d with
    | text t => if t.length = 16 then (Hexadecimal.value? t).map (.float ·.toUInt64) else none
    | _ => none
  | .texts =>
    match d with
    | list l => some (.texts (some l))
    | missing => some (.texts none)
    | _ => none

/-! ## Steps -/

/-- A new content of one field. -/
inductive Update where
  | flag (n : Int64)
  | value (d : Datum)
  | label (text : Bytes)
  deriving DecidableEq, Repr

/-- One operation on named records. -/
inductive Step where
  /-- Makes a record of a type, integral if asked. -/
  | new (slot : Bytes) (type : PayloadType) (isIntegral : Bool) (flag : Int64) (value : Datum)
      (label : Bytes)
  | copy (slot source : Bytes)
  | set (slot : Bytes) (update : Update)
  | get (slot : Bytes)
  | truthy (slot : Bytes)
  | equal (slot other : Bytes)
  deriving DecidableEq, Repr

/-- Why a step is rejected. -/
inductive Rejection where
  | unknownSlot
  | notInteger
  | outOfRange
  deriving DecidableEq, Repr

/-- What a step answers. -/
inductive Answer where
  | record (r : Record Payload)
  | truthy (b : Bool)
  | equal (b : Bool)
  | fault (fault : Fault)
  | rejected (why : Rejection)
  deriving DecidableEq, Repr

/-- The value of a type that a datum gives, or why there is none. -/
def Datum.read (d : Datum) (type : PayloadType) : Except Rejection Payload :=
  match d.read? type with
  | some p => .ok p
  | none => .error .outOfRange

/-- A record of a value, integral if asked, which only an integer can be. -/
def make (isIntegral : Bool) (flag : Int64) (value : Payload) (label : Bytes) :
    Except Rejection AnyRecord :=
  match isIntegral, value with
  | false, p => .ok (.plain ⟨flag, p, label⟩)
  | true, .integer n => .ok (.integral ⟨flag, n, label⟩)
  | true, _ => .error .notInteger

/-- Whether records of a type can be integral. -/
def isInteger : PayloadType → Bool
  | .integer _ => true
  | _ => false

/-- A record of a type from a datum. -/
def build (type : PayloadType) (isIntegral : Bool) (flag : Int64) (value : Datum) (label : Bytes) :
    Except Rejection AnyRecord :=
  if isIntegral && !isInteger type then .error .notInteger
  else match value.read type with
    | .ok p => make isIntegral flag p label
    | .error why => .error why

/-- A record with its flag replaced. -/
def setFlag (n : Int64) : AnyRecord → AnyRecord
  | .plain r => .plain { r with flag := n }
  | .integral r => .integral { r with flag := n }

/-- A record with its label replaced. -/
def setLabel (text : Bytes) : AnyRecord → AnyRecord
  | .plain r => .plain { r with label := text }
  | .integral r => .integral { r with label := text }

/-- A record with one field replaced.  Its kind and type stay. -/
def replace (r : AnyRecord) : Update → Except Rejection AnyRecord
  | .flag n => .ok (setFlag n r)
  | .label text => .ok (setLabel text r)
  | .value d =>
    match d.read r.toRecord.value.type, r with
    | .ok p, .plain s => .ok (.plain { s with value := p })
    | .ok (.integer n), .integral s => .ok (.integral { s with value := n })
    | .ok _, .integral _ => .error .notInteger
    | .error why, _ => .error why

/-- Does something with the record of a slot. -/
def withSlot (s : Slots) (slot : Bytes) (f : AnyRecord → Slots × Answer) : Slots × Answer :=
  match s.get? slot with
  | some r => f r
  | none => (s, .rejected .unknownSlot)

/-- Stores a record under a name and answers it, or answers why there is none. -/
def assign (s : Slots) (slot : Bytes) : Except Rejection AnyRecord → Slots × Answer
  | .ok r => (s.set slot r, .record r.toRecord)
  | .error why => (s, .rejected why)

/-- Runs one step. -/
def Step.run (s : Slots) : Step → Slots × Answer
  | .new slot type isIntegral flag value label =>
    assign s slot (build type isIntegral flag value label)
  | .copy slot source => withSlot s source fun r => assign s slot (.ok r)
  | .set slot update => withSlot s slot fun r => assign s slot (replace r update)
  | .get slot => withSlot s slot fun r => (s, .record r.toRecord)
  | .truthy slot => withSlot s slot fun r => (s, .truthy r.toRecord.truthy)
  | .equal slot other => withSlot s slot fun r => withSlot s other fun r' =>
    match r.compare r' with
    | .ok b => (s, .equal b)
    | .error fault => (s, .fault fault)

/-- Runs steps one after the other, and gives the records after them and their answers. -/
def runSteps (s : Slots) : List Step → Slots × List Answer
  | [] => (s, [])
  | step :: rest =>
    let (next, answer) := step.run s
    let (last, answers) := runSteps next rest
    (last, answer :: answers)

end Record

end ArgLine
