import ArgLine.Buffer.Memory

/-!
# ArgLine.Buffer.Basic

A buffer is a window of `size` bytes whose first byte lies at a multiple of
`align`.  It is cut out of an allocation of `size + align` bytes, so that
wherever the allocation starts there is room to skip up to the next multiple.

1. The alignment is a positive power of two, checked first; then the size must
   not be negative; then the allocation must fit below 2^47 bytes.
2. The window starts `padding` bytes into the allocation and cannot grow.
3. Closing a buffer forgets the allocation, the window and the address, and
   keeps the alignment.

Sizes are signed and addresses unsigned 64-bit words, and all arithmetic on
them wraps around.
-/

namespace ArgLine

/-- Why a buffer is refused. -/
inductive BufferError where
  /-- The alignment is no positive power of two. -/
  | alignment (align : Int64)
  /-- The size is negative. -/
  | size (size : Int64)
  /-- Size and alignment together pass the largest allocation. -/
  | tooLarge (size : Int64)
  deriving DecidableEq, Repr

/-- The text of a refusal. -/
def BufferError.message : BufferError → Bytes
  | .alignment n =>
    ascii "aligned.New: alignment must be a positive power of two: " ++ Decimal.ofInt n.toInt
  | .size n => ascii "aligned.New: size must not be negative: " ++ Decimal.ofInt n.toInt
  | .tooLarge n => ascii "aligned.New: size too large: " ++ Decimal.ofInt n.toInt

/-- An aligned window and the allocation behind it. -/
structure Buffer where
  /-- The whole allocation, missing once the buffer is closed. -/
  raw : Option Slice
  /-- The window, missing once the buffer is closed. -/
  window : Option Slice
  /-- The address of the window's first byte. -/
  addr : UInt64
  align : Int64
  deriving DecidableEq, Repr

/-- The least number of bytes to skip from an address to a multiple of `align`, both taken as
unsigned words. -/
def padding (addr : UInt64) (align : Int64) : Except Fault Int64 :=
  if align = 0 then .error .zeroDivisor
  else .ok ((align.toUInt64 - addr % align.toUInt64) % align.toUInt64).toInt64

namespace Buffer

/-- The largest allocation in bytes, one less than 2^47. -/
def maxAllocation : Int64 := 0x7FFFFFFFFFFF

/-- Why a buffer of this size and alignment is refused, if it is. -/
def refusal? (size align : Int64) : Option BufferError :=
  if align ≤ 0 ∨ align &&& (align - 1) ≠ 0 then some (.alignment align)
  else if size < 0 then some (.size size)
  else if size > maxAllocation - align then some (.tooLarge size)
  else none

/-- Cuts the aligned window out of a fresh allocation. -/
def carve (m : Memory) (raw : Slice) (size align : Int64) : Except Fault Buffer :=
  if raw.length = 0 then .error (.index 0 0)
  else do
    let off ← padding (m.address raw) align
    let window ← raw.sub off (off + size) (off + size)
    return ⟨some raw, some window, m.address raw + off.toUInt64, align⟩

/-- Acquires a buffer. -/
def acquire (a : Allocator) (m : Memory) (size align : Int64) :
    Except (Stop BufferError) (Memory × Buffer) :=
  match refusal? size align with
  | some e => .error (.failed e)
  | none =>
    let (next, raw) := m.allocate a (size + align).toInt.toNat
    match carve next raw size align with
    | .ok b => .ok (next, b)
    | .error fault => .error (.aborted fault)

/-- The usable size, 0 once the buffer is closed. -/
def length (b : Buffer) : Nat := Slice.lengthOf b.window

/-- Whether the buffer was closed. -/
def isClosed (b : Buffer) : Bool := b.raw.isNone

/-- The address of the first aligned byte, 0 once the buffer is closed. -/
def address (b : Buffer) : UInt64 := if b.isClosed then 0 else b.addr

/-- Closes a buffer; a closed one stays as it is. -/
def close (b : Buffer) : Buffer := { b with raw := none, window := none, addr := 0 }

end Buffer

end ArgLine
