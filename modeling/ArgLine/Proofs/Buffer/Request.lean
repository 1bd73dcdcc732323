import Mathlib
import ArgLine.Buffer.Basic

/-!
# ArgLine.Proofs.Buffer.Request

Which buffers are granted, and what a granted one looks like.

* `Refused` has one rule for each refusal of a `Request` (`refusal?_eq_some_iff`).  Its rules
  exclude each other, and speak of numbers without a bound.
* A request is granted exactly if its alignment is a power of two, its size is
  not negative, and both together stay below 2^47 (`granted_iff`).
* A granted request never faults, whatever address the allocator answers with:
  `acquire_eq` gives the allocation and the buffer that come of it.

Words are turned into numbers here once; what follows from these facts speaks of
numbers only.
-/

namespace ArgLine

/-! ## words as numbers -/

namespace Word

/-- A sum that fits does not wrap around. -/
theorem toInt_add {x y : Int64} (hlo : -2 ^ 63 ≤ x.toInt + y.toInt)
    (hhi : x.toInt + y.toInt < 2 ^ 63) : (x + y).toInt = x.toInt + y.toInt := by
  rw [Int64.toInt_add]
  exact Int.bmod_eq_of_le (by omega) (by omega)

theorem toInt_sub {x y : Int64} (hlo : -2 ^ 63 ≤ x.toInt - y.toInt)
    (hhi : x.toInt - y.toInt < 2 ^ 63) : (x - y).toInt = x.toInt - y.toInt := by
  rw [Int64.toInt_sub]
  exact Int.bmod_eq_of_le (by omega) (by omega)

/-- A word that is not negative is the same number with and without a sign. -/
theorem toNat_toUInt64 {x : Int64} (h : 0 ≤ x.toInt) : x.toUInt64.toNat = x.toInt.toNat := by
  have hx : (0 : Int64) ≤ x := Int64.le_iff_toInt_le.2 h
  rw [Int64.toNat_toUInt64_of_le hx]
  rfl

/-- Words are equal with a sign exactly if they are without. -/
theorem toUInt64_inj {x y : Int64} : x.toUInt64 = y.toUInt64 ↔ x = y := by
  constructor
  · intro h
    rw [← Int64.toInt64_toUInt64 x, h, Int64.toInt64_toUInt64]
  · exact congrArg Int64.toUInt64

theorem toUInt64_ne_zero {x : Int64} (h : x ≠ 0) : x.toUInt64 ≠ 0 :=
  fun hzero => h (toUInt64_inj.1 hzero)

/-- An unsigned word below 2^63 is the same number with a sign. -/
theorem toInt_toInt64 {x : UInt64} (h : x.toNat < 2 ^ 63) : x.toInt64.toInt = x.toNat := by
  have h2 : 2 * x.toBitVec.toNat < 2 ^ 64 := by
    change 2 * x.toNat < 2 ^ 64
    omega
  exact BitVec.toInt_eq_toNat_of_lt h2

/-- A positive word and its predecessor share no bit exactly if that holds of the number. -/
theorem and_sub_one_eq_zero_iff {x : Int64} (h : 0 < x.toInt) :
    x &&& (x - 1) = 0 ↔ x.toInt.toNat &&& (x.toInt.toNat - 1) = 0 := by
  have hx : x.toBitVec.toNat = x.toInt.toNat := toNat_toUInt64 (Int.le_of_lt h)
  have hle : 1#64 ≤ x.toBitVec := by
    rw [BitVec.le_def, hx]
    change 1 ≤ x.toInt.toNat
    omega
  have hand : (x &&& (x - 1)).toBitVec.toNat = x.toInt.toNat &&& (x.toInt.toNat - 1) := by
    rw [Int64.toBitVec_and, BitVec.toNat_and, Int64.toBitVec_sub]
    change x.toBitVec.toNat &&& (x.toBitVec - 1#64).toNat = _
    rw [BitVec.toNat_sub_of_le hle, hx]
    rfl
  rw [← hand, ← Int64.toBitVec_inj, ← BitVec.toNat_inj]
  rfl

end Word

/-- The alignment is a power of two. -/
def IsAlignment (align : Int64) : Prop := ∃ k ≤ 62, align.toInt = 2 ^ k

theorem IsAlignment.pos {align : Int64} (h : IsAlignment align) : 0 < align.toInt := by
  obtain ⟨k, -, hk⟩ := h
  rw [hk]
  positivity

/-- **The bit test for powers of two**: a signed word passes it exactly if it is one. -/
theorem isPowerOfTwo_iff {x : Int64} :
    ¬ (x ≤ 0 ∨ x &&& (x - 1) ≠ 0) ↔ IsAlignment x := by
  have hle : x ≤ 0 ↔ x.toInt ≤ 0 := Int64.le_iff_toInt_le
  rw [not_or, Decidable.not_not, hle, Int.not_le]
  constructor
  · rintro ⟨hpos, hand⟩
    rw [Word.and_sub_one_eq_zero_iff hpos,
      Nat.and_sub_one_eq_zero_iff_isPowerOfTwo (by omega)] at hand
    obtain ⟨k, hk⟩ := hand
    have hlt : 2 ^ k < 2 ^ 63 := by
      have := x.toInt_lt
      omega
    have hk63 : k < 63 := (Nat.pow_lt_pow_iff_right (by decide)).1 hlt
    refine ⟨k, by omega, ?_⟩
    have hcast : ((2 ^ k : Nat) : Int) = 2 ^ k := by norm_cast
    omega
  · rintro ⟨k, -, hk⟩
    have hcast : ((2 ^ k : Nat) : Int) = 2 ^ k := by norm_cast
    have hpow : 0 < 2 ^ k := Nat.pow_pos (by decide)
    have hpos : 0 < x.toInt := by omega
    refine ⟨hpos, (Word.and_sub_one_eq_zero_iff hpos).2 ?_⟩
    exact (Nat.and_sub_one_eq_zero_iff_isPowerOfTwo (by omega)).2 ⟨k, by omega⟩

/-! ## the next multiple -/

/-- The least number that leads from `n` to a multiple of `a`. -/
def gap (n a : Nat) : Nat := (a - n % a) % a

theorem gap_lt (n : Nat) {a : Nat} (h : 0 < a) : gap n a < a := Nat.mod_lt _ h

/-- The gap leads to a multiple. -/
theorem dvd_add_gap (n : Nat) {a : Nat} (h : 0 < a) : a ∣ n + gap n a := by
  have hr := Nat.mod_lt n h
  have hdiv := Nat.div_add_mod n a
  by_cases hz : n % a = 0
  · have hg : gap n a = 0 := by rw [gap, hz, Nat.sub_zero, Nat.mod_self]
    rw [hg, Nat.add_zero]
    exact Nat.dvd_of_mod_eq_zero hz
  · have hg : gap n a = a - n % a := Nat.mod_eq_of_lt (by omega)
    refine ⟨n / a + 1, ?_⟩
    rw [hg, Nat.mul_add, Nat.mul_one]
    omega

/-- No multiple lies within the gap. -/
theorem add_gap_le {n x a : Nat} (h : 0 < a) (hle : n ≤ x) (hdvd : a ∣ x) : n + gap n a ≤ x := by
  by_contra hlt
  have hdiff : a ∣ n + gap n a - x := Nat.dvd_sub (dvd_add_gap n h) hdvd
  have hge : a ≤ n + gap n a - x := Nat.le_of_dvd (by omega) hdiff
  have := gap_lt n h
  omega

/-- The remainder that the padding subtracts from the alignment is not above it. -/
theorem mod_le_self {addr a : UInt64} (h : a ≠ 0) : addr % a ≤ a := by
  have hpos : 0 < a.toNat := Nat.pos_of_ne_zero fun hzero => h (UInt64.toNat_inj.1 hzero)
  rw [UInt64.le_iff_toNat_le, UInt64.toNat_mod]
  exact Nat.le_of_lt (Nat.mod_lt _ hpos)

/-- For any alignment but zero the padding is the gap to the next multiple, both without a sign, and
no step of it wraps around. -/
theorem padding_of_ne_zero (addr : UInt64) {align : Int64} (h : align ≠ 0) :
    ∃ off, padding addr align = .ok off ∧
      off.toUInt64.toNat = gap addr.toNat align.toUInt64.toNat := by
  refine ⟨_, if_neg h, ?_⟩
  rw [UInt64.toUInt64_toInt64, UInt64.toNat_mod,
    UInt64.toNat_sub_of_le _ _ (mod_le_self (Word.toUInt64_ne_zero h)), UInt64.toNat_mod, gap]

/-- For a positive alignment the padding is not negative, and the gap with a sign too. -/
theorem padding_eq (addr : UInt64) {align : Int64} (h : 0 < align.toInt) :
    ∃ off, padding addr align = .ok off ∧ off.toInt = gap addr.toNat align.toInt.toNat := by
  have hne : align ≠ 0 := by
    rintro rfl
    exact absurd h (by decide)
  obtain ⟨off, hoff, hgap⟩ := padding_of_ne_zero addr hne
  rw [Word.toNat_toUInt64 (Int.le_of_lt h)] at hgap
  have hlt := gap_lt addr.toNat (by omega : 0 < align.toInt.toNat)
  have hmax := align.toInt_lt
  have hsigned : off.toUInt64.toInt64.toInt = off.toUInt64.toNat := Word.toInt_toInt64 (by omega)
  rw [Int64.toInt64_toUInt64, hgap] at hsigned
  exact ⟨off, hoff, hsigned⟩

/-! ## requests -/

/-- What is asked for when a buffer is acquired. -/
structure Request where
  size : Int64
  align : Int64
  deriving DecidableEq, Repr

namespace Request

def bytes (r : Request) : Nat := r.size.toInt.toNat

def boundary (r : Request) : Nat := r.align.toInt.toNat

/-- The length of the allocation behind the window. -/
def total (r : Request) : Nat := r.bytes + r.boundary

/-- The request is not refused. -/
def Granted (r : Request) : Prop := Buffer.refusal? r.size r.align = none

/-- How a request is refused. -/
inductive Refused (r : Request) : BufferError → Prop where
  | alignment (halign : ¬ IsAlignment r.align) : Refused r (.alignment r.align)
  | size (halign : IsAlignment r.align) (hsize : r.size.toInt < 0) : Refused r (.size r.size)
  | tooLarge (halign : IsAlignment r.align) (hsize : 0 ≤ r.size.toInt)
      (htotal : 2 ^ 47 - 1 < r.size.toInt + r.align.toInt) : Refused r (.tooLarge r.size)

/-- The room that an alignment leaves below the largest allocation; it may be negative. -/
theorem toInt_maxAllocation_sub {align : Int64} (h : 0 < align.toInt) :
    (Buffer.maxAllocation - align).toInt = 2 ^ 47 - 1 - align.toInt := by
  have hmax : Buffer.maxAllocation.toInt = 2 ^ 47 - 1 := by decide
  have hlt := align.toInt_lt
  rw [Word.toInt_sub (by omega) (by omega), hmax]

/-- The check against the largest allocation does not wrap around, so it bounds the sum. -/
theorem maxAllocation_sub_lt_iff {size align : Int64} (h : 0 < align.toInt) :
    size > Buffer.maxAllocation - align ↔ 2 ^ 47 - 1 < size.toInt + align.toInt := by
  rw [gt_iff_lt, Int64.lt_iff_toInt_lt, toInt_maxAllocation_sub h]
  omega

/-- **What is refused, and as what.** -/
theorem refusal?_eq_some_iff {r : Request} {e : BufferError} :
    Buffer.refusal? r.size r.align = some e ↔ r.Refused e := by
  have hnegative : r.size < 0 ↔ r.size.toInt < 0 := Int64.lt_iff_toInt_lt
  constructor
  · intro h
    unfold Buffer.refusal? at h
    split at h
    · next hbits =>
      obtain rfl := Option.some.inj h
      exact .alignment fun halign => isPowerOfTwo_iff.2 halign hbits
    · next hbits =>
      have halign : IsAlignment r.align := isPowerOfTwo_iff.1 hbits
      split at h
      · next hsize =>
        obtain rfl := Option.some.inj h
        exact .size halign (hnegative.1 hsize)
      · next hsize =>
        split at h
        · next hlarge =>
          obtain rfl := Option.some.inj h
          rw [hnegative, Int.not_lt] at hsize
          exact .tooLarge halign hsize ((maxAllocation_sub_lt_iff halign.pos).1 hlarge)
        · contradiction
  · intro h
    unfold Buffer.refusal?
    cases h with
    | alignment halign => exact if_pos (not_not.1 fun hbits => halign (isPowerOfTwo_iff.1 hbits))
    | size halign hsize =>
      rw [if_neg (isPowerOfTwo_iff.2 halign), if_pos (hnegative.2 hsize)]
    | tooLarge halign hsize htotal =>
      rw [if_neg (isPowerOfTwo_iff.2 halign), if_neg (by rw [hnegative]; omega),
        if_pos ((maxAllocation_sub_lt_iff halign.pos).2 htotal)]

/-- **What is granted**: powers of two, sizes that are not negative, and sums below 2^47. -/
theorem granted_iff {r : Request} : r.Granted ↔
    IsAlignment r.align ∧ 0 ≤ r.size.toInt ∧ r.size.toInt + r.align.toInt < 2 ^ 47 := by
  constructor
  · intro h
    have hnone : ∀ e, ¬ r.Refused e := by
      intro e he
      have := h.symm.trans (refusal?_eq_some_iff.2 he)
      contradiction
    have halign : IsAlignment r.align := by_contra fun h => hnone _ (.alignment h)
    have hsize : ¬ r.size.toInt < 0 := fun h => hnone _ (.size halign h)
    have htotal : ¬ 2 ^ 47 - 1 < r.size.toInt + r.align.toInt :=
      fun h => hnone _ (.tooLarge halign (by omega) h)
    exact ⟨halign, by omega, by omega⟩
  · rintro ⟨halign, hsize, htotal⟩
    cases hr : Buffer.refusal? r.size r.align with
    | none => exact hr
    | some e =>
      cases refusal?_eq_some_iff.1 hr with
      | alignment h => exact absurd halign h
      | size _ h => omega
      | tooLarge _ _ h => omega

/-- What is granted lies on a power of two. -/
theorem Granted.exists_pow {r : Request} (h : r.Granted) : ∃ k, r.boundary = 2 ^ k := by
  obtain ⟨⟨k, -, hk⟩, -, -⟩ := granted_iff.1 h
  exact ⟨k, by rw [boundary, hk]; norm_cast⟩

theorem Granted.boundary_pos {r : Request} (h : r.Granted) : 0 < r.boundary := by
  obtain ⟨k, hk⟩ := h.exists_pow
  rw [hk]
  exact Nat.pow_pos (by decide)

/-- What is granted is below the largest allocation. -/
theorem Granted.total_lt {r : Request} (h : r.Granted) : r.total < 2 ^ 47 := by
  obtain ⟨-, hs, ht⟩ := granted_iff.1 h
  have hb := h.boundary_pos
  unfold total
  unfold boundary at hb ⊢
  unfold bytes
  omega

/-- How far into an allocation at `base` the window starts. -/
def offset (r : Request) (base : UInt64) : Nat := gap base.toNat r.boundary

def block (r : Request) (base : UInt64) : Block := ⟨base, List.replicate r.total 0⟩

/-- The whole of the `i`-th allocation. -/
def raw (r : Request) (i : Nat) : Slice := ⟨i, 0, r.total, r.total⟩

/-- The aligned part of the `i`-th allocation. -/
def window (r : Request) (i : Nat) (base : UInt64) : Slice :=
  ⟨i, r.offset base, r.bytes, r.bytes⟩

/-- The buffer that is cut out of the `i`-th allocation, which lies at `base`. -/
def buffer (r : Request) (i : Nat) (base : UInt64) : Buffer :=
  ⟨some (r.raw i), some (r.window i base), base + (r.offset base).toUInt64, r.align⟩

/-- The window starts before the first boundary is over. -/
theorem Granted.offset_lt {r : Request} (h : r.Granted) (base : UInt64) :
    r.offset base < r.boundary := gap_lt _ h.boundary_pos

/-- The window ends within the allocation. -/
theorem Granted.offset_add_bytes_lt {r : Request} (h : r.Granted) (base : UInt64) :
    r.offset base + r.bytes < r.total := by
  have := h.offset_lt base
  unfold total
  omega

/-- A part of a slice whose bounds are in range, as numbers. -/
theorem sub_eq {s : Slice} {lo size : Int64} (hlo : 0 ≤ lo.toInt) (hsize : 0 ≤ size.toInt)
    (hsum : lo.toInt + size.toInt < 2 ^ 63) (hcap : lo.toInt + size.toInt ≤ s.capacity) :
    s.sub lo (lo + size) (lo + size) =
      .ok ⟨s.block, s.start + lo.toInt.toNat, size.toInt.toNat, size.toInt.toNat⟩ := by
  have hadd : (lo + size).toInt = lo.toInt + size.toInt := Word.toInt_add (by omega) hsum
  have hsub : (lo + size - lo).toInt = size.toInt := by
    have hlt := size.toInt_lt
    rw [Word.toInt_sub (by omega) (by omega), hadd]
    omega
  have hbounds : 0 ≤ lo ∧ lo ≤ lo + size ∧ lo + size ≤ lo + size ∧
      (lo + size).toInt ≤ s.capacity := by
    refine ⟨Int64.le_iff_toInt_le.2 hlo, Int64.le_iff_toInt_le.2 ?_, Int64.le_refl _, ?_⟩
    · omega
    · omega
  rw [Slice.sub, if_pos hbounds, hsub]

/-- Cutting the window out of a fresh allocation succeeds and gives the request's buffer. -/
theorem Granted.carve_eq {r : Request} (h : r.Granted) {m : Memory} {i : Nat} {base : UInt64}
    {content : Bytes} (hm : m.blocks[i]? = some ⟨base, content⟩) :
    Buffer.carve m (r.raw i) r.size r.align = .ok (r.buffer i base) := by
  obtain ⟨-, hsize, htotal⟩ := granted_iff.1 h
  have hpos : 0 < r.align.toInt := by
    have := h.boundary_pos
    unfold boundary at this
    omega
  have haddr : m.address (r.raw i) = base := by
    simp [Memory.address, raw, hm]
  have hne : (r.raw i).length ≠ 0 := by
    have := h.boundary_pos
    change r.bytes + r.boundary ≠ 0
    omega
  obtain ⟨off, hoff, hval⟩ := padding_eq base hpos
  change off.toInt = r.offset base at hval
  have hlt := h.offset_lt base
  have hbytes : (r.bytes : Int) = r.size.toInt := by unfold bytes; omega
  have hbound : (r.boundary : Int) = r.align.toInt := by unfold boundary; omega
  have hsub : (r.raw i).sub off (off + r.size) (off + r.size) = .ok (r.window i base) := by
    have hcap : off.toInt + r.size.toInt ≤ (r.raw i).capacity := by
      change _ ≤ ((r.bytes + r.boundary : Nat) : Int)
      omega
    rw [sub_eq (by omega) hsize (by omega) hcap, hval]
    change Except.ok (⟨i, 0 + (r.offset base : Int).toNat, r.bytes, r.bytes⟩ : Slice) = _
    rw [Nat.zero_add, Int.toNat_natCast]
    rfl
  have hword : off.toUInt64 = (r.offset base).toUInt64 := by
    rw [← UInt64.toNat_inj, Word.toNat_toUInt64 (by omega), hval, Int.toNat_natCast]
    have hsize64 : UInt64.size = 2 ^ 64 := rfl
    exact (UInt64.toNat_ofNat_of_lt (by omega)).symm
  rw [Buffer.carve, if_neg hne, haddr, hoff]
  change (do
    let window ← (r.raw i).sub off (off + r.size) (off + r.size)
    return ⟨some (r.raw i), some window, base + off.toUInt64, r.align⟩ : Except Fault Buffer) = _
  rw [hsub, hword]
  rfl

/-- **A granted request never faults**: whatever the allocator answers, there is one more
allocation, all zero, and the window is cut out of it. -/
theorem Granted.acquire_eq {r : Request} (h : r.Granted) (a : Allocator) (m : Memory) :
    Buffer.acquire a m r.size r.align =
      .ok (⟨m.blocks ++ [r.block (a m.blocks.length r.total)]⟩,
        r.buffer m.blocks.length (a m.blocks.length r.total)) := by
  obtain ⟨-, hsize, htotal⟩ := granted_iff.1 h
  have hpos := h.boundary_pos
  have hlen : (r.size + r.align).toInt.toNat = r.total := by
    have hadd : (r.size + r.align).toInt = r.size.toInt + r.align.toInt :=
      Word.toInt_add (by unfold boundary at hpos; omega) (by omega)
    rw [hadd, total, bytes, boundary]
    unfold boundary at hpos
    omega
  have hrefusal : Buffer.refusal? r.size r.align = none := h
  have hnew : (m.blocks ++ [r.block (a m.blocks.length r.total)])[m.blocks.length]? =
      some (r.block (a m.blocks.length r.total)) := List.getElem?_concat_length
  have hcarve := h.carve_eq (m := ⟨m.blocks ++ [r.block (a m.blocks.length r.total)]⟩) hnew
  have hallocate : m.allocate a r.total =
      (⟨m.blocks ++ [r.block (a m.blocks.length r.total)]⟩, r.raw m.blocks.length) := rfl
  simp only [Buffer.acquire, hrefusal, hlen, hallocate, hcarve]

/-- The window of a fresh allocation is all zero. -/
theorem Granted.read_window {r : Request} (h : r.Granted) (blocks : List Block) (base : UInt64) :
    Memory.read ⟨blocks ++ [r.block base]⟩ (r.window blocks.length base) =
      List.replicate r.bytes 0 := by
  have hfit := h.offset_add_bytes_lt base
  simp only [Memory.read, window, List.getElem?_concat_length, block, List.drop_replicate,
    List.take_replicate]
  rw [Nat.min_eq_left (by omega)]

/-- A request that is not granted is refused, and nothing is allocated. -/
theorem acquire_of_refusal {size align : Int64} {e : BufferError}
    (h : Buffer.refusal? size align = some e) (a : Allocator) (m : Memory) :
    Buffer.acquire a m size align = .error (.failed e) := by
  rw [Buffer.acquire, h]

/-- Where the allocation ends within the address space, the address of the window is a number that
did not wrap around, and a multiple of the alignment. -/
theorem Granted.addr_eq {r : Request} (h : r.Granted) (i : Nat) {base : UInt64}
    (hbase : base.toNat + r.total ≤ 2 ^ 64) :
    (r.buffer i base).addr.toNat = base.toNat + r.offset base := by
  have hlt := h.offset_lt base
  have hsize64 : UInt64.size = 2 ^ 64 := rfl
  have hoff : (r.offset base).toUInt64.toNat = r.offset base :=
    UInt64.toNat_ofNat_of_lt (by unfold total at hbase; omega)
  change (base + (r.offset base).toUInt64).toNat = _
  rw [UInt64.toNat_add, hoff]
  exact Nat.mod_eq_of_lt (by unfold total at hbase; omega)

/-- Such a window has an address. -/
theorem Granted.addr_ne_zero {r : Request} (h : r.Granted) (i : Nat) {base : UInt64}
    (hne : base ≠ 0) (hbase : base.toNat + r.total ≤ 2 ^ 64) : (r.buffer i base).addr ≠ 0 := by
  intro hzero
  have haddr := h.addr_eq i hbase
  have hbase0 : base.toNat ≠ 0 := fun h => hne (UInt64.toNat_inj.1 h)
  rw [hzero] at haddr
  have : (0 : UInt64).toNat = 0 := rfl
  omega

/-- The address that is lent is a multiple of the boundary. -/
theorem Granted.dvd_addr {r : Request} (h : r.Granted) (i : Nat) {base : UInt64}
    (hbase : base.toNat + r.total ≤ 2 ^ 64) : r.boundary ∣ (r.buffer i base).addr.toNat := by
  rw [h.addr_eq i hbase]
  exact dvd_add_gap base.toNat h.boundary_pos

/-- The address of a window is a multiple of the alignment, as a word too. -/
theorem Granted.addr_mod {r : Request} (h : r.Granted) (i : Nat) {base : UInt64}
    (hbase : base.toNat + r.total ≤ 2 ^ 64) :
    (r.buffer i base).addr % r.align.toUInt64 = 0 := by
  have hpos : 0 < r.boundary := h.boundary_pos
  have halign : r.align.toUInt64.toNat = r.boundary := by
    apply Word.toNat_toUInt64
    unfold boundary at hpos
    omega
  have hdvd := h.dvd_addr i hbase
  rw [← UInt64.toNat_inj, UInt64.toNat_mod, halign, Nat.mod_eq_zero_of_dvd hdvd]
  rfl

end Request

end ArgLine
