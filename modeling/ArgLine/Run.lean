import ArgLine.Buffer.Store
import ArgLine.Line
import ArgLine.Log.Logger
import ArgLine.Record.Basic
import ArgLine.Variant
import ArgLine.Writer

/-!
# ArgLine.Run

One run of the program: build a record, log it, write the line.

1. A run of the aligned variant first acquires a buffer of 64 bytes at a
   multiple of 64, logs where it lies, and closes it at the end on every path.
2. The record is logged before the line is written.
3. The whole line is written in one call.  A write that keeps less without an
   error is a success.
4. An unknown variant fails before anything is logged or written.

What a run does is a list of effects in order: entries that were delivered and
writes that were made.  `execute` is the run of a whole command, which logs an
error instead of returning it.
-/

namespace ArgLine

/-- Something a run does that can be seen from outside. -/
inductive Effect where
  /-- An entry was delivered by the logger. -/
  | logged (entry : Log.Entry)
  /-- A text was written, of which the writer kept a part. -/
  | wrote (offered kept : Bytes)
  deriving DecidableEq, Repr

namespace Effect

/-- The entries among some effects. -/
def entries (effects : List Effect) : List Log.Entry :=
  effects.filterMap fun
    | logged e => some e
    | wrote _ _ => none

/-- The bytes that were kept of the writes among some effects. -/
def output (effects : List Effect) : Bytes :=
  effects.flatMap fun
    | logged _ => []
    | wrote _ kept => kept

/-- The number of writes among some effects. -/
def writes (effects : List Effect) : Nat :=
  (effects.filter fun
    | logged _ => false
    | wrote _ _ => true).length

end Effect

/-- Why a run fails. -/
inductive RunError where
  /-- The buffer was refused. -/
  | acquire (error : BufferError)
  | unknownVariant (v : Variant)
  /-- The line could not be written, with the writer's text. -/
  | write (text : Bytes)
  deriving DecidableEq, Repr

/-- The text of a failure. -/
def RunError.message : RunError → Bytes
  | .acquire error => ascii "acquire buffer: " ++ error.message
  | .unknownVariant v => ascii "unknown variant " ++ v.name
  | .write text => ascii "write output: " ++ text

/-- What a run leaves: the buffers, what it did, and how it ended. -/
structure Run where
  store : Store
  effects : List Effect
  outcome : Outcome RunError
  deriving DecidableEq, Repr

namespace Run

/-- The size of the buffer of an aligned run. -/
def bufferSize : Int64 := 64

/-- The alignment of the buffer of an aligned run. -/
def bufferAlign : Int64 := 64

/-- The record of a plain run. -/
def plainRecord : Record Payload := ⟨0, .integer ⟨.int, 32⟩, ascii "abc"⟩

/-- The record of an aligned run. -/
def integralRecord : Record Integer := ⟨0, ⟨.int, 32⟩, ascii "abc"⟩

/-- The entry about an acquired buffer. -/
def bufferEntry (b : Buffer) : Log.Entry :=
  ⟨.debug, ascii "aligned buffer acquired",
    [⟨ascii "addr", .address b.address⟩, ⟨ascii "size", .int b.length⟩,
      ⟨ascii "align", .int b.align.toInt⟩]⟩

/-- The entry about the record. -/
def recordEntry (v : Variant) (truthy : Bool) : Log.Entry :=
  ⟨.debug, ascii "record constructed",
    [⟨ascii "variant", .text v.name⟩, ⟨ascii "truthy", .flag truthy⟩]⟩

/-- The effects of logging an entry. -/
def log (logger : Log.Logger) (e : Log.Entry) : List Effect :=
  (logger.delivered e).map .logged

/-- The effects of offering a text to a writer. -/
def write (w : Writer) (text : Bytes) : List Effect :=
  match w.keep? text with
  | some kept => [.wrote text kept]
  | none => []

/-- How a run ends after its write. -/
def finish (w : Writer) : Outcome RunError := w.finish.mapError .write

/-- The part that both variants share: the record is logged, then the line is written. -/
def report (logger : Log.Logger) (w : Writer) (args : List Bytes) (v : Variant) (truthy : Bool) :
    List Effect :=
  log logger (recordEntry v truthy) ++ write w (line args)

/-- One run of a variant.  Without a logger nothing is logged. -/
def perform (a : Allocator) (s : Store) (logger : Log.Logger) (w : Writer) (args : List Bytes)
    (v : Variant) : Run :=
  if v = .plain then
    ⟨s, report logger.orSilent w args v plainRecord.truthy, finish w⟩
  else if v = .aligned then
    match s.acquire a bufferSize bufferAlign with
    | .error (.failed e) => ⟨s, [], .failed (.acquire e)⟩
    | .error (.aborted fault) => ⟨s, [], .aborted fault⟩
    | .ok (opened, h) =>
      let acquired := (opened.buffer? h).toList.flatMap fun b =>
        log logger.orSilent (bufferEntry b)
      ⟨opened.close h, acquired ++ report logger.orSilent w args v integralRecord.truthy, finish w⟩
  else ⟨s, [], .failed (.unknownVariant v)⟩

/-- The entry about a failed run. -/
def failureEntry (e : RunError) : Log.Entry :=
  ⟨.error, ascii "demo run failed", [⟨ascii "error", .text e.message⟩]⟩

/-- The run of a whole command: an error is logged, and only a fault remains. -/
def execute (a : Allocator) (s : Store) (logger : Log.Logger) (w : Writer) (args : List Bytes)
    (v : Variant) : Store × List Effect × Option Fault :=
  let r := perform a s logger w args v
  match r.outcome with
  | .done => (r.store, r.effects, none)
  | .aborted fault => (r.store, r.effects, some fault)
  | .failed e =>
    let (entries, fault) := logger.log (failureEntry e)
    (r.store, r.effects ++ entries.map .logged, fault)

end Run

end ArgLine
