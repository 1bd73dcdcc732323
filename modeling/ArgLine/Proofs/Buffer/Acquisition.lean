import ArgLine.Proofs.Buffer.Trace

/-!
# ArgLine.Proofs.Buffer.Acquisition

Acquiring a buffer, exactly, for all sizes and alignments that a word can hold.

* `acquire_eq_error_iff`: an acquisition fails as `Request.Refused` says, and never by a fault.
* `Exact`: in an acquisition that is not refused no step wraps around or faults.
* `Acquired`: what comes of it, an open window of zeros that starts at the first multiple of the
  alignment in the allocation.
-/

namespace ArgLine

/-- The value that is refused. -/
def BufferError.value : BufferError → Int64
  | .alignment n | .size n | .tooLarge n => n

/-- The text of a refusal ends in the value that is refused. -/
theorem BufferError.value_suffix (e : BufferError) : Decimal.ofInt e.value.toInt <:+ e.message := by
  cases e with
  | alignment n => exact List.suffix_append ..
  | size n => exact List.suffix_append ..
  | tooLarge n => exact List.suffix_append ..

namespace Buffer

/-! ## what is acquired -/

/-- The steps of an acquisition at `base` whose window starts `off` bytes into the allocation: each
gives the number it would give without a bound, and each index lies in its range. -/
structure Exact (r : Request) (base : UInt64) (off : Int64) : Prop where
  pred : (r.align - 1).toInt = r.align.toInt - 1
  limit : (maxAllocation - r.align).toInt = 2 ^ 47 - 1 - r.align.toInt
  total : (r.size + r.align).toInt = r.size.toInt + r.align.toInt
  /-- The allocation has a first byte, whose address is taken. -/
  first : 0 < (r.size + r.align).toInt
  padding : padding base r.align = .ok off
  low : 0 ≤ off.toInt
  high : (off + r.size).toInt = off.toInt + r.size.toInt
  low_le_high : off.toInt ≤ (off + r.size).toInt
  high_le_total : (off + r.size).toInt ≤ (r.size + r.align).toInt
  addr : (base + off.toUInt64).toNat = base.toNat + off.toInt.toNat

/-- The memory `after` and the buffer `b` are what comes of a request in `m`, if the allocation lies
at `base` and the window starts `off` bytes into it. -/
structure Acquired (m : Memory) (r : Request) (base : UInt64) (off : Nat) (after : Memory)
    (b : Buffer) : Prop where
  /-- There is one more allocation, and it is zero. -/
  blocks_eq : after.blocks = m.blocks ++ [⟨base, List.replicate (r.bytes + r.boundary) 0⟩]
  raw_eq : b.raw = some ⟨m.blocks.length, 0, r.bytes + r.boundary, r.bytes + r.boundary⟩
  window_eq : b.window = some ⟨m.blocks.length, off, r.bytes, r.bytes⟩
  inside : off + r.bytes ≤ r.bytes + r.boundary
  zero : after.readAll b.window = List.replicate r.bytes 0
  isOpen : b.isClosed = false
  length_eq : b.length = r.bytes
  align_eq : b.align = r.align
  /-- The address of the buffer is that of the window's first byte. -/
  address_eq : b.address.toNat = base.toNat + off
  first : ∀ v ∈ b.window, after.address v = b.address
  address_ne_zero : b.address ≠ 0
  dvd : r.boundary ∣ base.toNat + off
  /-- No multiple of the alignment lies between the start of the allocation and the window. -/
  least : ∀ x, base.toNat ≤ x → r.boundary ∣ x → base.toNat + off ≤ x

section Granted

variable {r : Request}

/-- A request that is granted gets an offset that is exact. -/
theorem exact_of_granted (hr : r.Granted) {base : UInt64}
    (hend : base.toNat + r.total ≤ 2 ^ 64) :
    ∃ off : Int64, off.toInt = r.offset base ∧ Exact r base off := by
  obtain ⟨halign, hsize, htotal⟩ := Request.granted_iff.1 hr
  have hpos : 0 < r.align.toInt := IsAlignment.pos halign
  have hone : (1 : Int64).toInt = 1 := rfl
  obtain ⟨off, hoff, hval⟩ := padding_eq base hpos
  have hlt := hr.offset_lt base
  have hbound : (r.boundary : Int) = r.align.toInt := Int.toNat_of_nonneg (Int.le_of_lt hpos)
  change off.toInt = r.offset base at hval
  have hadd : (r.size + r.align).toInt = r.size.toInt + r.align.toInt :=
    Word.toInt_add (by omega) (by omega)
  have hhigh : (off + r.size).toInt = off.toInt + r.size.toInt :=
    Word.toInt_add (by omega) (by omega)
  refine ⟨off, hval, ?_⟩
  exact
    { pred := by rw [Word.toInt_sub (by omega) (by omega), hone]
      limit := Request.toInt_maxAllocation_sub hpos
      total := hadd
      first := by omega
      padding := hoff
      low := by omega
      high := hhigh
      low_le_high := by omega
      high_le_total := by omega
      addr := by
        have hword : off.toUInt64.toNat = off.toInt.toNat := Word.toNat_toUInt64 (by omega)
        rw [UInt64.toNat_add, hword]
        exact Nat.mod_eq_of_lt (by unfold Request.total at hend; omega) }

/-- A request that is granted adds one block and lends a window of it. -/
theorem acquired_of_granted (hr : r.Granted) (m : Memory) {base : UInt64} (hne : base ≠ 0)
    (hend : base.toNat + r.total ≤ 2 ^ 64) :
    Acquired m r base (r.offset base) ⟨m.blocks ++ [r.block base]⟩
      (r.buffer m.blocks.length base) := by
  have hlt := hr.offset_lt base
  have haddress : (r.buffer m.blocks.length base).address.toNat = base.toNat + r.offset base :=
    hr.addr_eq m.blocks.length hend
  exact
    { blocks_eq := rfl
      raw_eq := rfl
      window_eq := rfl
      inside := by omega
      zero := hr.read_window m.blocks base
      isOpen := rfl
      length_eq := rfl
      align_eq := rfl
      address_eq := haddress
      first := by
        intro v hv
        obtain rfl := Option.some.inj hv
        simp [Memory.address, Request.window, Request.block, Buffer.address, Buffer.isClosed,
          Request.buffer]
      address_ne_zero := hr.addr_ne_zero m.blocks.length hne hend
      dvd := dvd_add_gap base.toNat hr.boundary_pos
      least := fun x hle hdvd => add_gap_le hr.boundary_pos hle hdvd }

/-- An acquisition fails exactly as it is refused, and never by a fault. -/
theorem acquire_eq_error_iff (a : Allocator) (m : Memory) {stop : Stop BufferError} :
    acquire a m r.size r.align = .error stop ↔ ∃ e, stop = .failed e ∧ r.Refused e := by
  cases hr : refusal? r.size r.align with
  | none =>
    have hgranted : r.Granted := hr
    rw [hgranted.acquire_eq]
    simp only [reduceCtorEq, false_iff, not_exists, not_and]
    intro e _ hrefused
    rw [Request.refusal?_eq_some_iff.2 hrefused] at hr
    contradiction
  | some e =>
    rw [Request.acquire_of_refusal hr]
    constructor
    · intro h
      exact ⟨e, (Except.error.inj h).symm, Request.refusal?_eq_some_iff.1 hr⟩
    · rintro ⟨e', rfl, hrefused⟩
      have he : e = e' := Option.some.inj (hr.symm.trans (Request.refusal?_eq_some_iff.2 hrefused))
      rw [he]

end Granted

/-- A request that is refused leaves the store as it was. -/
theorem run_acquire_of_refused {r : Request} {e : BufferError} (h : r.Refused e) (a : Allocator)
    (s : Store) (slot : Bytes) : (Step.acquire slot r.size r.align).run a s = (s, .refused e) := by
  rw [Step.run, store_acquire_of_refusal (Request.refusal?_eq_some_iff.2 h)]

/-- **Acquiring a buffer is exact** for every size and alignment.  It fails if and as `Refused`
says, with the refused value in its text and with nothing made.  Otherwise no step wraps around or
faults, wherever within the address space the allocation lies, and the window starts at the first
multiple of the alignment. -/
theorem acquire_exact (a : Allocator) (m : Memory) (r : Request) :
    (∀ stop, acquire a m r.size r.align = .error stop ↔ ∃ e, stop = .failed e ∧ r.Refused e) ∧
    (∀ e, r.Refused e → Decimal.ofInt e.value.toInt <:+ e.message ∧
      ∀ s slot, (Step.acquire slot r.size r.align).run a s = (s, .refused e)) ∧
    (IsAlignment r.align → 0 ≤ r.size.toInt → r.size.toInt + r.align.toInt ≤ 2 ^ 47 - 1 →
      ∀ base, a m.blocks.length (r.bytes + r.boundary) = base → base ≠ 0 →
      base.toNat + (r.bytes + r.boundary) ≤ 2 ^ 64 →
      ∃ off after b, acquire a m r.size r.align = .ok (after, b) ∧ Exact r base off ∧
        Acquired m r base off.toInt.toNat after b) := by
  refine ⟨fun stop => acquire_eq_error_iff a m, fun e he => ?_, ?_⟩
  · exact ⟨e.value_suffix, run_acquire_of_refused he a⟩
  · rintro halign hsize htotal base rfl hne hend
    have hr : r.Granted := Request.granted_iff.2 ⟨halign, hsize, by omega⟩
    obtain ⟨off, hoff, hexact⟩ := exact_of_granted hr hend
    refine ⟨off, _, _, hr.acquire_eq a m, hexact, ?_⟩
    rw [hoff, Int.toNat_natCast]
    exact acquired_of_granted hr m hne hend

/-- The largest alignment that leaves room for a byte, with the largest size beside it, in an
allocation that starts at address 8. -/
theorem acquire_exact_largest :
    IsAlignment 0x400000000000 ∧
    (0x3FFFFFFFFFFF : Int64).toInt + (0x400000000000 : Int64).toInt = 2 ^ 47 - 1 ∧ ∃ off after b,
      acquire (fun _ _ => 8) .empty 0x3FFFFFFFFFFF 0x400000000000 = .ok (after, b) ∧
      Exact ⟨0x3FFFFFFFFFFF, 0x400000000000⟩ 8 off ∧
      Acquired .empty ⟨0x3FFFFFFFFFFF, 0x400000000000⟩ 8 off.toInt.toNat after b := by
  have halign : IsAlignment 0x400000000000 := ⟨46, by decide, by decide⟩
  have hexact := acquire_exact (fun _ _ => 8) .empty ⟨0x3FFFFFFFFFFF, 0x400000000000⟩
  refine ⟨halign, by decide, ?_⟩
  exact hexact.2.2 halign (by decide) (by decide) 8 rfl (by decide) (by decide)

end Buffer

end ArgLine
