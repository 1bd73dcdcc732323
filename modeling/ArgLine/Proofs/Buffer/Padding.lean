import ArgLine.Proofs.Buffer.Request

/-!
# ArgLine.Proofs.Buffer.Padding

The padding in front of a window, for every address and every alignment that a word can hold.

* `isGap_iff`: the gap to the next multiple is the only number below the alignment that leads to a
  multiple.  Whatever else leads to one is shown to be the padding by this.
* `Least`: the padding of any alignment but zero.  A negative one counts without its sign.
* `Masked`: for a power of two the padding is a mask of the negated address, and the sum is a
  multiple even where it wraps around, since a power of two divides 2^64.
-/

namespace ArgLine

/-- Going `k` on from `n` leads to a multiple of `a`, and there is none before. -/
def IsGap (n a k : Nat) : Prop := k < a ∧ a ∣ n + k

/-- **There is one gap.** -/
theorem isGap_iff {n a k : Nat} (h : 0 < a) : IsGap n a k ↔ k = gap n a := by
  constructor
  · rintro ⟨hlt, hdvd⟩
    have hle : n + gap n a ≤ n + k := add_gap_le h (Nat.le_add_right n k) hdvd
    have hdiff : a ∣ n + k - (n + gap n a) := Nat.dvd_sub hdvd (dvd_add_gap n h)
    have hzero : n + k - (n + gap n a) = 0 := Nat.eq_zero_of_dvd_of_lt hdiff (by omega)
    omega
  · rintro rfl
    exact ⟨gap_lt n h, dvd_add_gap n h⟩

/-- Only a multiple has no gap to the next one. -/
theorem gap_eq_zero_iff {n a : Nat} (h : 0 < a) : gap n a = 0 ↔ a ∣ n := by
  rw [eq_comm, ← isGap_iff h]
  simp [IsGap, h]

namespace Padding

/-! ## any alignment -/

/-- The padding `off` leads from `addr` to the first multiple of `align`, all three without a sign,
and no subtraction on the way wraps around. -/
structure Least (addr : UInt64) (align off : Int64) : Prop where
  unique : ∀ k, k < align.toUInt64.toNat ∧ align.toUInt64.toNat ∣ addr.toNat + k ↔
    k = off.toUInt64.toNat
  zero_iff : off = 0 ↔ align.toUInt64.toNat ∣ addr.toNat
  remainder_le : addr % align.toUInt64 ≤ align.toUInt64
  sub_eq : (align.toUInt64 - addr % align.toUInt64).toNat =
    align.toUInt64.toNat - addr.toNat % align.toUInt64.toNat

/-- The padding is the least that reaches a multiple. -/
theorem least_of_ne_zero (addr : UInt64) {align : Int64} (h : align ≠ 0) :
    ∃ off, padding addr align = .ok off ∧ Least addr align off := by
  obtain ⟨off, hoff, hgap⟩ := padding_of_ne_zero addr h
  have hne := Word.toUInt64_ne_zero h
  have hpos : 0 < align.toUInt64.toNat :=
    Nat.pos_of_ne_zero fun hzero => hne (UInt64.toNat_inj.1 hzero)
  refine ⟨off, hoff, ?_⟩
  exact
    { unique := by
        intro k
        rw [hgap]
        exact isGap_iff hpos
      zero_iff := by
        rw [← gap_eq_zero_iff hpos, ← hgap, ← Word.toUInt64_inj, ← UInt64.toNat_inj]
        rfl
      remainder_le := mod_le_self hne
      sub_eq := by rw [UInt64.toNat_sub_of_le _ _ (mod_le_self hne), UInt64.toNat_mod] }

/-- There is no padding to multiples of zero, and that is the only fault. -/
theorem eq_error_iff {addr : UInt64} {align : Int64} {fault : Fault} :
    padding addr align = .error fault ↔ align = 0 ∧ fault = .zeroDivisor := by
  by_cases h : align = 0
  · simp [padding, h, eq_comm]
  · simp [padding, h]

/-! ## powers of two -/

/-- The padding `off` of a power of two: it is a mask of the negated address, and the sum of both
words is a multiple of the alignment, wrapped around or not. -/
structure Masked (addr : UInt64) (align off : Int64) : Prop where
  nonneg : 0 ≤ off.toInt
  mask : off = (-addr).toInt64 &&& (align - 1)
  dvd_sum : align.toInt ∣ (addr + off.toUInt64).toNat

/-- A power of two divides the number of words. -/
theorem exists_pow {align : Int64} (h : IsAlignment align) :
    ∃ k, align.toUInt64.toNat = 2 ^ k ∧ 2 ^ k ∣ 2 ^ 64 := by
  obtain ⟨k, hk, hpow⟩ := h
  refine ⟨k, ?_, Nat.pow_dvd_pow 2 (by omega)⟩
  rw [Word.toNat_toUInt64 (by rw [hpow]; positivity), hpow]
  norm_cast

/-- The low bits of the negated address lead to a multiple: the address and its negation add up to
zero or to 2^64. -/
theorem isGap_neg_mod (addr : UInt64) {a : Nat} (hpos : 0 < a) (hdvd : a ∣ 2 ^ 64) :
    IsGap addr.toNat a ((-addr).toNat % a) := by
  have hlt := addr.toNat_lt
  have hwords : UInt64.size = 2 ^ 64 := rfl
  have hsum : a ∣ addr.toNat + (-addr).toNat := by
    rw [UInt64.toNat_neg, hwords]
    by_cases hzero : addr.toNat = 0
    · simp [hzero]
    · rw [Nat.mod_eq_of_lt (by omega), Nat.add_sub_cancel' (by omega)]
      exact hdvd
  refine ⟨Nat.mod_lt _ hpos, Nat.dvd_of_mod_eq_zero ?_⟩
  rw [Nat.add_mod_mod]
  exact Nat.mod_eq_zero_of_dvd hsum

/-- The mask of a power of two leaves the remainder by it. -/
theorem toNat_and_pred {align : Int64} {k : Nat} (h : IsAlignment align)
    (hk : align.toUInt64.toNat = 2 ^ k) (x : UInt64) :
    (x &&& (align - 1).toUInt64).toNat = x.toNat % 2 ^ k := by
  have hpos := h.pos
  have hone : (1 : Int64).toInt = 1 := rfl
  have hpred : (align - 1).toInt = align.toInt - 1 := by
    have hlt := align.toInt_lt
    rw [Word.toInt_sub (by omega) (by omega), hone]
  have hnat : (align - 1).toUInt64.toNat = 2 ^ k - 1 := by
    rw [Word.toNat_toUInt64 (by omega), hpred, ← hk, Word.toNat_toUInt64 (by omega)]
    omega
  rw [UInt64.toNat_and, hnat, Nat.and_two_pow_sub_one_eq_mod]

/-- For a power of two the padding is found by a mask. -/
theorem masked_of_isAlignment (addr : UInt64) {align : Int64} (h : IsAlignment align) :
    ∃ off, padding addr align = .ok off ∧ Masked addr align off := by
  obtain ⟨k, hk, hdvd⟩ := exists_pow h
  have hpos : 0 < 2 ^ k := Nat.two_pow_pos k
  obtain ⟨off, hoff, hsigned⟩ := padding_eq addr h.pos
  have halign : align.toInt.toNat = 2 ^ k := by
    rw [← hk, Word.toNat_toUInt64 (Int.le_of_lt h.pos)]
  have hgap : off.toUInt64.toNat = gap addr.toNat (2 ^ k) := by
    rw [Word.toNat_toUInt64 (by omega), hsigned, halign, Int.toNat_natCast]
  refine ⟨off, hoff, ?_⟩
  exact
    { nonneg := by omega
      mask := by
        rw [← Word.toUInt64_inj, Int64.toUInt64_and, UInt64.toUInt64_toInt64, ← UInt64.toNat_inj,
          toNat_and_pred h hk, hgap]
        -- the mask leads to a multiple as well, and there is only one gap
        exact ((isGap_iff hpos).1 (isGap_neg_mod addr hpos hdvd)).symm
      dvd_sum := by
        have hsum : 2 ^ k ∣ (addr + off.toUInt64).toNat := by
          rw [UInt64.toNat_add, hgap, Nat.dvd_mod_iff hdvd]
          exact dvd_add_gap addr.toNat hpos
        rw [← Int.toNat_of_nonneg (Int.le_of_lt h.pos), halign]
        exact Int.natCast_dvd_natCast.2 hsum }

/-- **The padding is the least one**, for all words.  It faults for the alignment zero and for no
other.  Otherwise it is the one number below the alignment that leads to a multiple, where the sum
is not bounded by a word.  For a power of two it is a mask, and the sum as a word is a multiple
too. -/
theorem padding_exact (addr : UInt64) (align : Int64) :
    (∀ fault, padding addr align = .error fault ↔ align = 0 ∧ fault = .zeroDivisor) ∧
    (align ≠ 0 → ∃ off, padding addr align = .ok off ∧ Least addr align off) ∧
    (IsAlignment align → ∃ off, padding addr align = .ok off ∧ Masked addr align off) :=
  ⟨fun _ => eq_error_iff, least_of_ne_zero addr, masked_of_isAlignment addr⟩

/-- The last address there is, with an alignment that is negative with a sign, and with the largest
power of two, where the sum wraps around to zero. -/
theorem padding_exact_last :
    (-3 : Int64) ≠ 0 ∧ IsAlignment 0x4000000000000000 ∧
    (∃ off, padding 0xFFFFFFFFFFFFFFFF (-3) = .ok off ∧ Least 0xFFFFFFFFFFFFFFFF (-3) off) ∧
    ∃ off, padding 0xFFFFFFFFFFFFFFFF 0x4000000000000000 = .ok off ∧
      Masked 0xFFFFFFFFFFFFFFFF 0x4000000000000000 off := by
  have hne : (-3 : Int64) ≠ 0 := by decide
  have halign : IsAlignment 0x4000000000000000 := ⟨62, by decide, by decide⟩
  exact ⟨hne, halign, (padding_exact 0xFFFFFFFFFFFFFFFF (-3)).2.1 hne,
    (padding_exact 0xFFFFFFFFFFFFFFFF 0x4000000000000000).2.2 halign⟩

end Padding

end ArgLine
