import Mathlib.Tactic
import ArgLine.Record.Basic

/-!
# ArgLine.Proofs.Record.Number

The number that the 64 bits of a float denote, and what comparing bits says about it.

* `number?` reads the bits as the format has them: a sign, eleven bits of exponent, and fifty-two of
  fraction.  Finite numbers are rational, so that nothing is rounded.
* `magnitude_inj`: without the sign, no two rows of bits denote the same finite number.  Scaled to
  whole units, a number with a larger exponent is larger whatever the fractions are
  (`units_lt_units`).
* `same_iff`: two floats are the same exactly if both denote a number and it is one number.
-/

namespace ArgLine

namespace Float64

/-! ## the parts of a float -/

def isNegative (bits : UInt64) : Bool := 2 ^ 63 ≤ bits.toNat

def exponent (bits : UInt64) : Nat := bits.toNat / 2 ^ 52 % 2 ^ 11

def fraction (bits : UInt64) : Nat := bits.toNat % 2 ^ 52

theorem fraction_lt (bits : UInt64) : fraction bits < 2 ^ 52 := Nat.mod_lt _ (by decide)

/-- The parts make up the bits. -/
theorem toNat_eq (bits : UInt64) :
    bits.toNat =
      (if isNegative bits then 2 ^ 63 else 0) + exponent bits * 2 ^ 52 + fraction bits := by
  have hlt := bits.toNat_lt
  unfold isNegative exponent fraction
  split
  · next h =>
    have := of_decide_eq_true h
    omega
  · next h =>
    have : ¬ 2 ^ 63 ≤ bits.toNat := fun hle => h (decide_eq_true hle)
    omega

/-- Sign, exponent and fraction make up the word. -/
theorem eq_of_parts {x y : UInt64} (hsign : isNegative x = isNegative y)
    (hexponent : exponent x = exponent y) (hfraction : fraction x = fraction y) : x = y := by
  rw [← UInt64.toNat_inj, toNat_eq x, toNat_eq y, hsign, hexponent, hfraction]

/-! ## the number of a float -/

/-- What a float denotes, if it denotes a number. -/
inductive Number where
  | finite (value : ℚ)
  | infinite (negative : Bool)
  deriving DecidableEq

/-- The value of an exponent and a fraction.  The least exponent has no leading one. -/
def magnitude (e f : Nat) : ℚ :=
  if e = 0 then (f / 2 ^ 52) * 2 ^ (-1022 : ℤ) else (1 + f / 2 ^ 52) * 2 ^ (e - 1023 : ℤ)

def signed (negative : Bool) (value : ℚ) : ℚ := if negative then -value else value

/-- The number that the bits denote.  The largest exponent stands for infinity, or with a fraction
for no number at all. -/
def number? (bits : UInt64) : Option Number :=
  if exponent bits = 2047 then
    if fraction bits = 0 then some (.infinite (isNegative bits)) else none
  else some (.finite (signed (isNegative bits) (magnitude (exponent bits) (fraction bits))))

/-! ## the order of magnitudes -/

/-- The least positive magnitude. -/
def least : ℚ := 2 ^ (-1074 : ℤ)

theorem least_pos : 0 < least := by
  unfold least
  positivity

/-- How often the least positive magnitude is in another. -/
def units (e f : Nat) : Nat := if e = 0 then f else (2 ^ 52 + f) * 2 ^ (e - 1)

theorem zpow_eq_mul_least (k : Nat) : (2 : ℚ) ^ (k - 1022 : ℤ) = 2 ^ k * 2 ^ 52 * least := by
  rw [least, ← pow_add, ← zpow_natCast (2 : ℚ), ← zpow_add₀ two_ne_zero]
  congr 1
  push_cast
  ring

/-- A magnitude is a whole number of the least positive numbers. -/
theorem magnitude_eq (e f : Nat) : magnitude e f = units e f * least := by
  unfold magnitude units
  split
  · have hscale : (2 : ℚ) ^ (-1022 : ℤ) = 2 ^ 52 * least := by simpa using zpow_eq_mul_least 0
    rw [hscale]
    ring
  · next h =>
    obtain ⟨k, rfl⟩ := Nat.exists_eq_add_one_of_ne_zero h
    have hexponent : ((k + 1 : Nat) : ℤ) - 1023 = k - 1022 := by
      push_cast
      ring
    rw [hexponent, zpow_eq_mul_least, Nat.add_sub_cancel]
    push_cast
    ring

/-- Below the next exponent there is room for every fraction. -/
theorem units_lt {e f : Nat} (hf : f < 2 ^ 52) : units e f < 2 ^ 52 * 2 ^ e := by
  unfold units
  split
  · next h => simpa [h] using hf
  · next h =>
    obtain ⟨k, rfl⟩ := Nat.exists_eq_succ_of_ne_zero h
    calc (2 ^ 52 + f) * 2 ^ k < (2 ^ 52 + 2 ^ 52) * 2 ^ k :=
          Nat.mul_lt_mul_of_pos_right (by omega) (Nat.two_pow_pos k)
      _ = 2 ^ 52 * 2 ^ (k + 1) := by ring

/-- Above the first exponent no fraction is lost. -/
theorem le_units {e : Nat} (he : e ≠ 0) (f : Nat) : 2 ^ 52 * 2 ^ (e - 1) ≤ units e f := by
  rw [units, if_neg he]
  exact Nat.mul_le_mul_right _ (Nat.le_add_right _ _)

/-- A larger exponent gives a larger magnitude, and so does a larger fraction to the same one. -/
theorem units_lt_units {e f e' f' : Nat} (hf : f < 2 ^ 52) (h : e < e' ∨ e = e' ∧ f < f') :
    units e f < units e' f' := by
  rcases h with hlt | ⟨rfl, hlt⟩
  · -- a fraction does not make up for an exponent: it stays below the next power of two
    calc units e f < 2 ^ 52 * 2 ^ e := units_lt hf
      _ ≤ 2 ^ 52 * 2 ^ (e' - 1) :=
          Nat.mul_le_mul_left _ (Nat.pow_le_pow_right (by decide) (by omega))
      _ ≤ units e' f' := le_units (by omega) f'
  · unfold units
    split
    · exact hlt
    · exact Nat.mul_lt_mul_of_pos_right (by omega) (Nat.two_pow_pos _)

/-- Different exponents and fractions count differently. -/
theorem units_inj {e f e' f' : Nat} (hf : f < 2 ^ 52) (hf' : f' < 2 ^ 52) :
    units e f = units e' f' ↔ e = e' ∧ f = f' := by
  constructor
  · intro h
    have hle : ¬ (e < e' ∨ e = e' ∧ f < f') := fun hlt => (units_lt_units hf hlt).ne h
    have hge : ¬ (e' < e ∨ e' = e ∧ f' < f) := fun hlt => (units_lt_units hf' hlt).ne h.symm
    omega
  · rintro ⟨rfl, rfl⟩
    rfl

/-- **Different parts are different magnitudes.** -/
theorem magnitude_inj {e f e' f' : Nat} (hf : f < 2 ^ 52) (hf' : f' < 2 ^ 52) :
    magnitude e f = magnitude e' f' ↔ e = e' ∧ f = f' := by
  rw [magnitude_eq, magnitude_eq, mul_left_inj' least_pos.ne', Nat.cast_inj, units_inj hf hf']

theorem magnitude_nonneg (e f : Nat) : 0 ≤ magnitude e f := by
  rw [magnitude_eq]
  exact mul_nonneg (Nat.cast_nonneg _) least_pos.le

theorem magnitude_zero : magnitude 0 0 = 0 := by simp [magnitude]

/-- Values with a sign are equal only if they are without, and have the same sign or are zero. -/
theorem signed_inj {s t : Bool} {p q : ℚ} (hp : 0 ≤ p) (hq : 0 ≤ q) :
    signed s p = signed t q ↔ p = q ∧ (s = t ∨ p = 0) := by
  by_cases hst : s = t
  · subst hst
    cases s <;> simp [signed]
  · have hopposite : p = -q ↔ p = q ∧ p = 0 := by
      constructor
      · intro h
        constructor <;> linarith
      · rintro ⟨rfl, rfl⟩
        exact neg_zero.symm
    cases s <;> cases t <;> simp_all [signed, neg_eq_iff_eq_neg]

/-! ## comparing bits -/

/-- All bits but the sign. -/
theorem toNat_and_low (x : UInt64) :
    (x &&& 0x7FFFFFFFFFFFFFFF).toNat = exponent x * 2 ^ 52 + fraction x := by
  have hmask : (0x7FFFFFFFFFFFFFFF : UInt64).toNat = 2 ^ 63 - 1 := rfl
  rw [UInt64.toNat_and, hmask, Nat.and_two_pow_sub_one_eq_mod]
  unfold exponent fraction
  omega

/-- The words that are not a number denote none. -/
theorem isNaN_iff {x : UInt64} : isNaN x = true ↔ number? x = none := by
  have hinfinity : (0x7FF0000000000000 : UInt64).toNat = 2047 * 2 ^ 52 := rfl
  have hlt := fraction_lt x
  have hparts : isNaN x = true ↔ exponent x = 2047 ∧ fraction x ≠ 0 := by
    rw [isNaN, decide_eq_true_iff, gt_iff_lt, UInt64.lt_iff_toNat_lt, toNat_and_low, hinfinity]
    unfold exponent
    omega
  rw [hparts, number?]
  split
  · next h => simp [h]
  · next h => simp [h]

theorem isZero_iff {x : UInt64} : isZero x = true ↔ exponent x = 0 ∧ fraction x = 0 := by
  rw [isZero, beq_iff_eq, ← UInt64.toNat_inj, toNat_and_low]
  change _ = 0 ↔ _
  omega

/-- Both zeros denote zero. -/
theorem number?_of_isZero {x : UInt64} (h : isZero x = true) : number? x = some (.finite 0) := by
  obtain ⟨hexponent, hfraction⟩ := isZero_iff.1 h
  have hsigned : ∀ s, signed s 0 = 0 := by
    intro s
    cases s <;> simp [signed]
  rw [number?, hexponent, if_neg (by decide), hfraction, magnitude_zero, hsigned]

/-- An infinite number is told by its exponent, its fraction and its sign. -/
theorem number?_eq_infinite_iff {x : UInt64} {s : Bool} :
    number? x = some (.infinite s) ↔ exponent x = 2047 ∧ fraction x = 0 ∧ isNegative x = s := by
  rw [number?]
  split
  · next h =>
    split
    · next h' => simp [h, h']
    · next h' => simp [h']
  · next h => simp [h]

/-- A finite number is its magnitude with its sign. -/
theorem number?_eq_finite_iff {x : UInt64} {q : ℚ} :
    number? x = some (.finite q) ↔
      exponent x ≠ 2047 ∧ signed (isNegative x) (magnitude (exponent x) (fraction x)) = q := by
  rw [number?]
  split
  · next h =>
    split
    · simp [h]
    · simp [h]
  · next h => simp [h]

/-- Bits that denote one number are the same bits, or those of the two zeros. -/
theorem eq_or_isZero_of_number? {x y : UInt64} {n : Number} (hx : number? x = some n)
    (hy : number? y = some n) : x = y ∨ isZero x = true ∧ isZero y = true := by
  cases n with
  | infinite s =>
    obtain ⟨hex, hfx, hsx⟩ := number?_eq_infinite_iff.1 hx
    obtain ⟨hey, hfy, hsy⟩ := number?_eq_infinite_iff.1 hy
    exact .inl (eq_of_parts (hsx.trans hsy.symm) (hex.trans hey.symm) (hfx.trans hfy.symm))
  | finite q =>
    obtain ⟨-, hqx⟩ := number?_eq_finite_iff.1 hx
    obtain ⟨-, hqy⟩ := number?_eq_finite_iff.1 hy
    obtain ⟨hmagnitude, hsign⟩ :=
      (signed_inj (magnitude_nonneg _ _) (magnitude_nonneg _ _)).1 (hqx.trans hqy.symm)
    obtain ⟨hexponent, hfraction⟩ :=
      (magnitude_inj (fraction_lt x) (fraction_lt y)).1 hmagnitude
    rcases hsign with hsign | hzero
    · exact .inl (eq_of_parts hsign hexponent hfraction)
    · rw [← magnitude_zero, magnitude_inj (fraction_lt x) (by decide)] at hzero
      have hzero' := hzero
      rw [hexponent, hfraction] at hzero'
      exact .inr ⟨isZero_iff.2 hzero, isZero_iff.2 hzero'⟩

/-- **Floats are compared as numbers**: they are the same exactly if both denote a number and it is
one number. -/
theorem same_iff {x y : UInt64} :
    same x y = true ↔ ∃ n, number? x = some n ∧ number? y = some n := by
  have hnumber : ∀ z, isNaN z = false ↔ ∃ n, number? z = some n := by
    intro z
    rw [← Bool.not_eq_true, isNaN_iff]
    exact Option.ne_none_iff_exists'
  simp only [same, Bool.and_eq_true, Bool.or_eq_true, Bool.not_eq_true', beq_iff_eq, hnumber]
  constructor
  · rintro ⟨⟨⟨n, hx⟩, -⟩, rfl | ⟨hzx, hzy⟩⟩
    · exact ⟨n, hx, hx⟩
    · exact ⟨.finite 0, number?_of_isZero hzx, number?_of_isZero hzy⟩
  · rintro ⟨n, hx, hy⟩
    exact ⟨⟨⟨n, hx⟩, n, hy⟩, eq_or_isZero_of_number? hx hy⟩

/-- One and a half below zero, the infinity below, a NaN, and the least number above zero. -/
example : number? 0xBFF8000000000000 = some (.finite (-3 / 2)) ∧
    number? 0xFFF0000000000000 = some (.infinite true) ∧ number? 0x7FF8000000000000 = none ∧
    number? 1 = some (.finite least) := by decide +kernel

end Float64

end ArgLine
