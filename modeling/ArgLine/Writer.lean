import ArgLine.Fault

/-!
# ArgLine.Writer

Where a line is written to.  A writer is offered the whole line in one call,
keeps the first bytes of it, and then returns, fails or aborts.  Keeping fewer
bytes than offered is not an error by itself.
-/

namespace ArgLine

/-- A destination of output, by what it does with a write. -/
inductive Writer where
  /-- Keeps everything. -/
  | accepting
  /-- Keeps at most `n` bytes and reports no error. -/
  | short (n : Nat)
  /-- Keeps at most `n` bytes and fails with a text. -/
  | failing (n : Nat) (text : Bytes)
  /-- Keeps at most `n` bytes and aborts with a text. -/
  | aborting (n : Nat) (text : Bytes)
  /-- There is nothing to write to. -/
  | missing
  deriving DecidableEq, Repr

namespace Writer

/-- The bytes that a writer keeps of one write, `none` if no write is made. -/
def keep? : Writer → Bytes → Option Bytes
  | accepting, text => some text
  | short n, text => some (text.take n)
  | failing n _, text => some (text.take n)
  | aborting n _, text => some (text.take n)
  | missing, _ => none

/-- How a write ends: an error is the writer's text. -/
def finish : Writer → Outcome Bytes
  | accepting | short _ => .done
  | failing _ text => .failed text
  | aborting _ text => .aborted (.raised text)
  | missing => .aborted .absent

/-- The text with which a write fails, if it does. -/
def failure? : Writer → Option Bytes
  | failing _ text => some text
  | _ => none

end Writer

end ArgLine
