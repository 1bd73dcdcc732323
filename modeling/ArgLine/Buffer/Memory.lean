import ArgLine.Fault

/-!
# ArgLine.Buffer.Memory

Memory as a growing list of allocations, and slices that look into them.

* A `Block` is one allocation: where it starts, and its bytes.
* A `Slice` is a part of one block.  Its capacity says how far it may grow in
  place.  Where a slice may be missing, as after a buffer is closed, the type is
  `Option Slice`.
* Several slices may look into one block: a byte stored through one is seen
  through all.

A block is never freed, so a slice stays readable for ever.
-/

namespace ArgLine

/-- One allocation. -/
structure Block where
  /-- The address of the first byte. -/
  base : UInt64
  bytes : Bytes
  deriving DecidableEq, Repr

/-- All allocations so far, oldest first. -/
structure Memory where
  blocks : List Block
  deriving DecidableEq, Repr

/-- Chooses the address of an allocation, given how many were made before it and its length. -/
abbrev Allocator := Nat → Nat → UInt64

/-- For every length below 2^47 the base is an address, and the allocation ends within the address
space. -/
def Allocator.Valid (a : Allocator) : Prop :=
  ∀ i n : Nat, n < 0x800000000000 → a i n ≠ 0 ∧ (a i n).toNat + n ≤ UInt64.size

/-- Spreads allocations over the address space, on bases that are no multiple of a large power of
two. -/
def Allocator.spread : Allocator := fun i _ => (0x800000000000 * (i % 0x10000 + 1) + 8).toUInt64

/-- A part of a block. -/
structure Slice where
  /-- Which block, counted from the oldest. -/
  block : Nat
  start : Nat
  length : Nat
  capacity : Nat
  deriving DecidableEq, Repr

namespace Slice

/-- The length of a slice, 0 if it is missing. -/
def lengthOf : Option Slice → Nat
  | some s => s.length
  | none => 0

/-- The capacity of a slice, 0 if it is missing. -/
def capacityOf : Option Slice → Nat
  | some s => s.capacity
  | none => 0

/-- How many bytes can be assigned from an index on, 0 if it is out of range. -/
def room (w : Option Slice) (i : Int64) : Nat :=
  if 0 ≤ i then lengthOf w - i.toInt.toNat else 0

/-- The part of a slice from `lo` to `hi` that may grow up to `max`. -/
def sub (s : Slice) (lo hi max : Int64) : Except Fault Slice :=
  if 0 ≤ lo ∧ lo ≤ hi ∧ hi ≤ max ∧ max.toInt ≤ s.capacity then
    .ok ⟨s.block, s.start + lo.toInt.toNat, (hi - lo).toInt.toNat, (max - lo).toInt.toNat⟩
  else .error .bounds

end Slice

namespace Memory

/-- No allocation was made yet. -/
def empty : Memory := ⟨[]⟩

/-- A fresh allocation of `n` zero bytes, and the slice of all of it. -/
def allocate (a : Allocator) (m : Memory) (n : Nat) : Memory × Slice :=
  (⟨m.blocks ++ [⟨a m.blocks.length n, List.replicate n 0⟩]⟩, ⟨m.blocks.length, 0, n, n⟩)

/-- The address of the first byte of a slice. -/
def address (m : Memory) (s : Slice) : UInt64 :=
  match m.blocks[s.block]? with
  | some b => b.base + s.start.toUInt64
  | none => 0

/-- The bytes that a slice shows. -/
def read (m : Memory) (s : Slice) : Bytes :=
  match m.blocks[s.block]? with
  | some b => (b.bytes.drop s.start).take s.length
  | none => []

/-- The bytes that a slice shows, none if it is missing. -/
def readAll (m : Memory) : Option Slice → Bytes
  | some s => m.read s
  | none => []

/-- Stores bytes in a block from a place on; what would lie past its end is lost. -/
def storeAll (m : Memory) (block place : Nat) (data : Bytes) : Memory :=
  ⟨m.blocks.modify block fun b => { b with bytes := Bytes.overwrite b.bytes place data }⟩

/-- Assigns the bytes of `data` one after the other from index `i` on.  The first index out of
range ends it; what was assigned before stays. -/
def put (m : Memory) (w : Option Slice) (i : Int64) (data : Bytes) : Memory × Option Fault :=
  let kept := data.take (Slice.room w i)
  (match w with
    | some s => m.storeAll s.block (s.start + i.toInt.toNat) kept
    | none => m,
   if kept.length < data.length then
    some (.index (i + Int64.ofNat kept.length) (Slice.lengthOf w))
   else none)

/-! ## Appending -/

/-- Where the result of an append lies. -/
inductive Appended where
  /-- In the memory of the slice it was appended to. -/
  | inPlace (w : Option Slice)
  /-- In memory of its own. -/
  | copied (bytes : Bytes)
  deriving DecidableEq, Repr

/-- Appends `data` to a slice: in place if the capacity allows it, else to a copy. -/
def append (m : Memory) (w : Option Slice) (data : Bytes) : Memory × Appended :=
  if Slice.lengthOf w + data.length ≤ Slice.capacityOf w then
    match w with
    | some s =>
      (m.storeAll s.block (s.start + s.length) data,
        .inPlace (some { s with length := s.length + data.length }))
    | none => (m, .inPlace none)
  else (m, .copied (m.readAll w ++ data))

/-- The number of bytes of an append's result. -/
def Appended.length : Appended → Nat
  | inPlace w => Slice.lengthOf w
  | copied bytes => bytes.length

/-- Overwrites the first byte of an append's result, if there is one. -/
def stamp (m : Memory) (b : UInt8) : Appended → Memory
  | .inPlace (some s) => if 0 < s.length then m.storeAll s.block s.start [b] else m
  | .inPlace none => m
  | .copied _ => m

end Memory

end ArgLine
