import ArgLine.Bindings
import ArgLine.Buffer.Basic

/-!
# ArgLine.Buffer.Store

Many buffers at once.  A `Store` holds the memory, every buffer that was made,
named slots that refer to buffers, and named slices that were kept.

* Two slots may hold the same handle: they are two names of one buffer.
* A slot may hold no buffer, which is not the same as a slot that was never set.
* A kept slice stays readable after its buffer is closed.

`withBuffer` acquires a buffer for the time of one computation and closes it
however the computation ends.
-/

namespace ArgLine

/-- Which buffer, counted in the order in which they were made. -/
abbrev Handle := Nat

/-- Buffers, their memory and the names for them. -/
structure Store where
  memory : Memory
  buffers : List Buffer
  slots : Bindings (Option Handle)
  holds : Bindings (Option Slice)
  deriving DecidableEq, Repr

namespace Store

/-- Nothing was made yet. -/
def empty : Store := ⟨.empty, [], .empty, .empty⟩

/-- The buffer of a handle. -/
def buffer? (s : Store) (h : Handle) : Option Buffer := s.buffers[h]?

/-- Adds a buffer and gives its handle. -/
def add (s : Store) (b : Buffer) : Store × Handle :=
  ({ s with buffers := s.buffers ++ [b] }, s.buffers.length)

/-- Acquires a buffer and gives its handle. -/
def acquire (a : Allocator) (s : Store) (size align : Int64) :
    Except (Stop BufferError) (Store × Handle) :=
  match Buffer.acquire a s.memory size align with
  | .ok (m, b) => .ok ({ s with memory := m }.add b)
  | .error stop => .error stop

/-- Closes the buffer of a handle. -/
def close (s : Store) (h : Handle) : Store :=
  { s with buffers := s.buffers.modify h Buffer.close }

/-- The window of a handle, missing if there is no buffer or it is closed. -/
def window (s : Store) (h : Option Handle) : Option Slice :=
  match h.bind s.buffer? with
  | some b => b.window
  | none => none

/-- Names a buffer. -/
def setSlot (s : Store) (slot : Bytes) (h : Option Handle) : Store :=
  { s with slots := s.slots.set slot h }

/-- Keeps a slice under a name. -/
def keep (s : Store) (name : Bytes) (w : Option Slice) : Store :=
  { s with holds := s.holds.set name w }

/-- Runs `body` on the window of a buffer acquired for it.  The buffer is closed when the body is
done, and if the buffer is refused the body does not run. -/
def withBuffer (a : Allocator) (s : Store) (size align : Int64)
    (body : Store → Option Slice → Store × β) : Except (Stop BufferError) (Store × β) :=
  match s.acquire a size align with
  | .error stop => .error stop
  | .ok (opened, h) =>
    let (after, result) := body opened (opened.window (some h))
    .ok (after.close h, result)

end Store

end ArgLine
