import ArgLine.Buffer.Store

/-!
# ArgLine.Buffer.Script

Runs of operations on a store of buffers, and what each operation answers.

A `Step` names its buffers by slot.  A step that uses a slot or a kept slice
that was never set answers that it is unknown; a refused acquisition and a
fault are answers too, and the next step goes on from the state they left.

A `Scope` is a scoped acquisition with a fixed body: keep the window if asked,
put some bytes, then finish, fail, abort, or open another scope inside.
-/

namespace ArgLine

namespace Buffer

/-! ## Views -/

/-- What can be seen of a slice. -/
structure SliceView where
  bytes : Bytes
  capacity : Nat
  missing : Bool
  deriving DecidableEq, Repr

/-- What can be seen of a buffer that exists, beside its window. -/
structure Placement where
  align : Int64
  /-- The address modulo the alignment. -/
  residue : UInt64
  /-- Whether the address is that of the window's first byte, for a window that has one. -/
  atFirstByte : Option Bool
  deriving DecidableEq, Repr

/-- What can be seen of a slot. -/
structure View where
  window : SliceView
  length : Nat
  closed : Bool
  hasAddress : Bool
  /-- Absent if the slot holds no buffer. -/
  placement : Option Placement
  deriving DecidableEq, Repr

/-- What can be seen of a slice. -/
def viewSlice (m : Memory) (w : Option Slice) : SliceView :=
  ⟨m.readAll w, Slice.capacityOf w, w.isNone⟩

/-- Whether the address is that of the window's first byte, for a window that has one. -/
def atFirstByte (m : Memory) (b : Buffer) : Option Bool :=
  match b.window with
  | some w => if 0 < w.length then some (b.address == m.address w) else none
  | none => none

/-- The usable size of a slot's buffer, 0 if it holds none. -/
def lengthOf (b : Option Buffer) : Nat := b.elim 0 length

/-- Whether a slot's buffer was closed; one that is not there counts as closed. -/
def isClosedOf (b : Option Buffer) : Bool := b.elim true isClosed

/-- Whether a slot's buffer has an address. -/
def hasAddressOf (b : Option Buffer) : Bool := b.elim false fun b => b.address != 0

/-- What can be seen of a slot's buffer, if it holds one. -/
def viewBuffer (m : Memory) (b : Option Buffer) : View :=
  { window := viewSlice m (b.bind Buffer.window)
    length := lengthOf b
    closed := isClosedOf b
    hasAddress := hasAddressOf b
    placement := b.map fun b => ⟨b.align, b.address % b.align.toUInt64, atFirstByte m b⟩ }

/-! ## Scopes -/

/-- How the body of a scope ends. -/
inductive Ending where
  | finish
  | fail (text : Bytes)
  | abort (text : Bytes)
  deriving DecidableEq, Repr

/-- What a scope acquires and does first. -/
structure Opening where
  size : Int64
  align : Int64
  /-- The name under which the window is kept, if it is. -/
  keepAs : Option Bytes
  /-- Where the bytes are put. -/
  index : Int64
  data : Bytes
  deriving DecidableEq, Repr

/-- A scoped acquisition with its body. -/
inductive Scope where
  | leaf (opening : Opening) (ending : Ending)
  | nest (opening : Opening) (inner : Scope)
  deriving DecidableEq, Repr

/-- What a scope reports. -/
inductive ScopeReport where
  /-- The buffer was refused and the body did not run. -/
  | refused (stop : Stop BufferError)
  /-- The window at the start with its address modulo the alignment, the window after the bytes
  were put unless that aborted, and how the body ended; an error is the body's own text. -/
  | ended (first : SliceView) (residue : Option UInt64) (second : Option SliceView)
      (outcome : Outcome Bytes)
  /-- The same for a body that opened another scope, with the report of that. -/
  | nested (first : SliceView) (residue : Option UInt64) (second : SliceView)
      (inner : ScopeReport)
  deriving DecidableEq, Repr

/-- The address of a slice's first byte modulo an alignment, if it has a first byte. -/
def residue? (m : Memory) (w : Option Slice) (align : Int64) : Option UInt64 :=
  match w with
  | some s => if 0 < s.length then some (m.address s % align.toUInt64) else none
  | none => none

/-- Keeps the window under a name if one is given. -/
def keepIf (s : Store) (name : Option Bytes) (w : Option Slice) : Store :=
  match name with
  | some n => s.keep n w
  | none => s

/-- How a body with this ending ends. -/
def Ending.outcome : Ending → Outcome Bytes
  | .finish => .done
  | .fail text => .failed text
  | .abort text => .aborted (.raised text)

/-- The body of a scope: what every body does first, then `rest`. -/
def Opening.body (o : Opening)
    (rest : Store → SliceView → Option UInt64 → SliceView → Store × ScopeReport)
    (s : Store) (w : Option Slice) : Store × ScopeReport :=
  let first := viewSlice s.memory w
  let residue := residue? s.memory w o.align
  let kept := keepIf s o.keepAs w
  match kept.memory.put w o.index o.data with
  | (m, some fault) =>
    ({ kept with memory := m }, .ended first residue none (.aborted fault))
  | (m, none) => rest { kept with memory := m } first residue (viewSlice m w)

/-- Runs a scope. -/
def Scope.run (a : Allocator) (s : Store) : Scope → Store × ScopeReport
  | .leaf o ending =>
    match s.withBuffer a o.size o.align (o.body fun s first residue second =>
        (s, .ended first residue (some second) ending.outcome)) with
    | .ok result => result
    | .error stop => (s, .refused stop)
  | .nest o inner =>
    match s.withBuffer a o.size o.align (o.body fun s first residue second =>
        let (after, report) := inner.run a s
        (after, .nested first residue second report)) with
    | .ok result => result
    | .error stop => (s, .refused stop)

/-! ## Steps -/

/-- One operation on a store. -/
inductive Step where
  /-- Acquires a buffer. -/
  | acquire (slot : Bytes) (size align : Int64)
  /-- Makes a slot hold no buffer. -/
  | clear (slot : Bytes)
  /-- Names the buffer of one slot by another. -/
  | share (slot source : Bytes)
  /-- Makes a second buffer with the same window. -/
  | clone (slot source : Bytes)
  | get (slot : Bytes)
  | close (slot : Bytes)
  | align (slot : Bytes)
  | length (slot : Bytes)
  | closed (slot : Bytes)
  | hasAddress (slot : Bytes)
  /-- Assigns bytes of the window. -/
  | put (slot : Bytes) (index : Int64) (data : Bytes)
  /-- Appends to the window and overwrites the first byte of the result by 0xee. -/
  | append (slot : Bytes) (data : Bytes)
  /-- Keeps the window under a name. -/
  | hold (slot name : Bytes)
  | held (name : Bytes)
  /-- Assigns bytes of a kept slice. -/
  | putHeld (name : Bytes) (index : Int64) (data : Bytes)
  | scope (scope : Scope)
  deriving DecidableEq, Repr

/-- What a step answers. -/
inductive Answer where
  | buffer (view : View)
  | appended (view : View) (length : Nat)
  | slice (view : SliceView)
  | align (align : Int64)
  | length (length : Nat)
  | closed (closed : Bool)
  | hasAddress (has : Bool)
  | scope (report : ScopeReport)
  | refused (error : BufferError)
  | fault (fault : Fault)
  | unknownSlot
  | unknownHold
  deriving DecidableEq, Repr

/-- The view of a slot's buffer as an answer. -/
def answerBuffer (s : Store) (h : Option Handle) : Store × Answer :=
  (s, .buffer (viewBuffer s.memory (h.bind s.buffer?)))

/-- Does something with the buffer of a slot that was set. -/
def withSlot (s : Store) (slot : Bytes) (f : Option Handle → Store × Answer) : Store × Answer :=
  match s.slots.get? slot with
  | some h => f h
  | none => (s, .unknownSlot)

/-- Does something with a slice that was kept. -/
def withHold (s : Store) (name : Bytes) (f : Option Slice → Store × Answer) : Store × Answer :=
  match s.holds.get? name with
  | some w => f w
  | none => (s, .unknownHold)

/-- Puts bytes through a slice and answers by `view`, or by the fault. -/
def putThrough (s : Store) (w : Option Slice) (index : Int64) (data : Bytes)
    (view : Store → Answer) : Store × Answer :=
  match s.memory.put w index data with
  | (m, some fault) => ({ s with memory := m }, .fault fault)
  | (m, none) => ({ s with memory := m }, view { s with memory := m })

/-- The byte that marks the result of an append. -/
def mark : UInt8 := 0xee

/-- Runs one step. -/
def Step.run (a : Allocator) (s : Store) : Step → Store × Answer
  | .acquire slot size alignment =>
    match s.acquire a size alignment with
    | .ok (next, h) => answerBuffer (next.setSlot slot (some h)) (some h)
    | .error (.failed e) => (s, .refused e)
    | .error (.aborted fault) => (s, .fault fault)
  | .clear slot => answerBuffer (s.setSlot slot none) none
  | .share slot source => withSlot s source fun h => answerBuffer (s.setSlot slot h) h
  | .clone slot source => withSlot s source fun h =>
    match h.bind s.buffer? with
    | some b =>
      let (next, copy) := s.add b
      answerBuffer (next.setSlot slot (some copy)) (some copy)
    | none => (s, .unknownSlot)
  | .get slot => withSlot s slot fun h => answerBuffer s h
  | .close slot => withSlot s slot fun
    | some h => answerBuffer (s.close h) (some h)
    | none => answerBuffer s none
  | .align slot => withSlot s slot fun h =>
    match h.bind s.buffer? with
    | some b => (s, .align b.align)
    | none => (s, .fault .absent)
  | .length slot => withSlot s slot fun h =>
    (s, .length (lengthOf (h.bind s.buffer?)))
  | .closed slot => withSlot s slot fun h =>
    (s, .closed (isClosedOf (h.bind s.buffer?)))
  | .hasAddress slot => withSlot s slot fun h =>
    (s, .hasAddress (hasAddressOf (h.bind s.buffer?)))
  | .put slot index data => withSlot s slot fun h =>
    putThrough s (s.window h) index data fun s =>
      .buffer (viewBuffer s.memory (h.bind s.buffer?))
  | .append slot data => withSlot s slot fun h =>
    let (m, result) := s.memory.append (s.window h) data
    let next := { s with memory := m.stamp mark result }
    (next, .appended (viewBuffer next.memory (h.bind next.buffer?)) result.length)
  | .hold slot name => withSlot s slot fun h =>
    (s.keep name (s.window h), .slice (viewSlice s.memory (s.window h)))
  | .held name => withHold s name fun w => (s, .slice (viewSlice s.memory w))
  | .putHeld name index data => withHold s name fun w =>
    putThrough s w index data fun s => .slice (viewSlice s.memory w)
  | .scope body =>
    let (next, report) := body.run a s
    (next, .scope report)

/-- Runs steps one after the other, and gives the state after them and their answers. -/
def runSteps (a : Allocator) (s : Store) : List Step → Store × List Answer
  | [] => (s, [])
  | step :: rest =>
    let (next, answer) := step.run a s
    let (last, answers) := runSteps a next rest
    (last, answer :: answers)

/-- A run in two parts is the second from where the first leads. -/
theorem runSteps_append (a : Allocator) (s : Store) (xs ys : List Step) :
    runSteps a s (xs ++ ys) =
      ((runSteps a (runSteps a s xs).1 ys).1,
        (runSteps a s xs).2 ++ (runSteps a (runSteps a s xs).1 ys).2) := by
  induction xs generalizing s with
  | nil => rfl
  | cons step rest ih => simp [runSteps, ih]

end Buffer

end ArgLine
