import ArgLine.Text.Decimal

/-!
# ArgLine.Proofs.Text.Decimal

Reading numbers back.

* `eq_ofNat_iff`: a row of bytes is the decimal text of a number exactly if it is canonical and
  has the number as its value.  So a number has one decimal text and a decimal text one number.
* `toInt?_ofInt`: the text of an integer is read back as that integer, sign and all.
-/

namespace ArgLine

namespace Decimal

def IsDigit (b : UInt8) : Prop := 48 ≤ b.toNat ∧ b.toNat ≤ 57

/-- There is a digit, and the first is zero only if it is the only one. -/
def Canonical (digits : Bytes) : Prop :=
  digits ≠ [] ∧ (digits.head? = some 48 → digits = [48])

instance (digits : Bytes) : Decidable (Canonical digits) :=
  inferInstanceAs (Decidable (_ ∧ _))

/-! ## the digits of a number -/

def digit (d : Nat) : UInt8 := UInt8.ofNat (48 + d)

theorem toNat_digit {d : Nat} (h : d < 10) : (digit d).toNat = 48 + d := by
  rw [digit, UInt8.toNat_ofNat']
  omega

theorem toUInt8_digitChar {d : Nat} (h : d < 10) : (Nat.digitChar d).toUInt8 = digit d := by
  have hval : (Nat.digitChar d).val.toNat = 48 + d := Nat.toNat_digitChar_of_lt_ten h
  apply UInt8.toNat.inj
  rw [toNat_digit h, Char.toUInt8, UInt32.toNat_toUInt8, hval]
  omega

theorem isDigit_digit {d : Nat} (h : d < 10) : IsDigit (digit d) := by
  rw [IsDigit, toNat_digit h]
  omega

theorem IsDigit.eq_digit {b : UInt8} (h : IsDigit b) : b = digit (b.toNat - 48) := by
  unfold IsDigit at h
  apply UInt8.toNat.inj
  rw [toNat_digit (by omega)]
  omega

/-- The last digit is the remainder by ten, and the others are those of the quotient. -/
theorem ofNat_eq (n : Nat) :
    ofNat n = (if n < 10 then [] else ofNat (n / 10)) ++ [digit (n % 10)] := by
  have hlast : n % 10 < 10 := Nat.mod_lt n (by decide)
  unfold ofNat
  rw [Nat.toDigits_eq_if (by decide)]
  split
  · next h =>
    rw [Nat.mod_eq_of_lt h, List.map_singleton, toUInt8_digitChar h, List.nil_append]
  · rw [List.map_append, List.map_singleton, toUInt8_digitChar hlast]

theorem ofNat_of_lt {n : Nat} (h : n < 10) : ofNat n = [digit n] := by
  rw [ofNat_eq, if_pos h, Nat.mod_eq_of_lt h, List.nil_append]

/-- A number of several digits ends with its last. -/
theorem ofNat_of_le {n : Nat} (h : 10 ≤ n) : ofNat n = ofNat (n / 10) ++ [digit (n % 10)] := by
  rw [ofNat_eq n, if_neg (by omega)]

theorem ofNat_ne_nil (n : Nat) : ofNat n ≠ [] := by
  rw [ofNat_eq]
  simp

theorem isDigit_of_mem_ofNat {n : Nat} {b : UInt8} (h : b ∈ ofNat n) : IsDigit b := by
  induction n using Nat.strongRecOn with
  | ind n ih =>
    by_cases hn : n < 10
    · rw [ofNat_of_lt hn, List.mem_singleton] at h
      exact h ▸ isDigit_digit hn
    · rw [ofNat_of_le (by omega), List.mem_append, List.mem_singleton] at h
      rcases h with h | rfl
      · exact ih (n / 10) (by omega) h
      · exact isDigit_digit (by omega)

theorem head?_concat {digits : Bytes} (h : digits ≠ []) (b : UInt8) :
    (digits ++ [b]).head? = digits.head? := by
  obtain ⟨d, rest, rfl⟩ := List.exists_cons_of_ne_nil h
  rfl

/-- Only zero starts with a zero. -/
theorem head?_ofNat_ne {n : Nat} (h : n ≠ 0) : (ofNat n).head? ≠ some 48 := by
  induction n using Nat.strongRecOn with
  | ind n ih =>
    by_cases hn : n < 10
    · rw [ofNat_of_lt hn, List.head?_singleton]
      intro heq
      have hzero : (digit n).toNat = 48 := congrArg UInt8.toNat (Option.some.inj heq)
      rw [toNat_digit hn] at hzero
      omega
    · rw [ofNat_of_le (by omega), head?_concat (ofNat_ne_nil _)]
      exact ih (n / 10) (by omega) (by omega)

/-- A number is written without leading zeros. -/
theorem canonical_ofNat (n : Nat) : Canonical (ofNat n) := by
  refine ⟨ofNat_ne_nil n, fun hhead => ?_⟩
  by_cases hn : n = 0
  · subst hn
    rfl
  · exact absurd hhead (head?_ofNat_ne hn)

/-! ## the value of a row of digits -/

theorem value?_concat (digits : Bytes) (b : UInt8) :
    value? (digits ++ [b]) =
      (value? digits).bind fun n =>
        if 48 ≤ b ∧ b ≤ 57 then some (10 * n + (b.toNat - 48)) else none := by
  unfold value?
  rw [List.foldlM_append]
  simp

/-- A row with a value ends in a digit, and what precedes it has a value. -/
theorem value?_concat_eq_some {digits : Bytes} {b : UInt8} {n : Nat}
    (h : value? (digits ++ [b]) = some n) :
    IsDigit b ∧ ∃ m, value? digits = some m ∧ n = 10 * m + (b.toNat - 48) := by
  rw [value?_concat, Option.bind_eq_some_iff] at h
  obtain ⟨m, hm, h⟩ := h
  split at h
  · next hb => exact ⟨hb, m, hm, (Option.some.inj h).symm⟩
  · contradiction

theorem value?_concat_digit {digits : Bytes} {m d : Nat} (h : value? digits = some m)
    (hd : d < 10) : value? (digits ++ [digit d]) = some (10 * m + d) := by
  have hdigit : 48 ≤ digit d ∧ digit d ≤ 57 := isDigit_digit hd
  rw [value?_concat, h, Option.bind_some, if_pos hdigit, toNat_digit hd, Nat.add_sub_cancel_left]

/-- A number is read as it was written. -/
theorem value?_ofNat (n : Nat) : value? (ofNat n) = some n := by
  induction n using Nat.strongRecOn with
  | ind n ih =>
    by_cases hn : n < 10
    · have hnil : value? [] = some 0 := rfl
      simpa [ofNat_of_lt hn] using value?_concat_digit hnil hn
    · rw [ofNat_of_le (by omega),
        value?_concat_digit (ih (n / 10) (by omega)) (Nat.mod_lt n (by decide)), Nat.div_add_mod]

/-- What precedes the last digit of a canonical row is canonical and not zero. -/
theorem Canonical.of_concat {digits : Bytes} {b : UInt8} (h : Canonical (digits ++ [b]))
    (hne : digits ≠ []) : Canonical digits ∧ digits ≠ [48] := by
  have hhead : digits.head? ≠ some 48 := by
    intro hzero
    have hone : digits ++ [b] = [48] := h.2 ((head?_concat hne b).trans hzero)
    exact hne (List.append_inj' hone rfl : _ ∧ [b] = [48]).1
  refine ⟨⟨hne, fun hzero => absurd hzero hhead⟩, ?_⟩
  rintro rfl
  exact hhead rfl

/-- Digits without leading zeros are how their value is written. -/
theorem eq_ofNat_of_value? {digits : Bytes} {n : Nat} (hcanonical : Canonical digits)
    (h : value? digits = some n) : digits = ofNat n := by
  -- from the right, as a number is written: every step settles the last digit
  induction hlen : digits.length generalizing digits n with
  | zero => exact absurd (List.length_eq_zero_iff.1 hlen) hcanonical.1
  | succ k ih =>
    obtain ⟨front, b, hdigits⟩ := (List.eq_nil_or_concat digits).resolve_left hcanonical.1
    rw [List.concat_eq_append] at hdigits
    subst hdigits
    obtain ⟨hb, m, hm, rfl⟩ := value?_concat_eq_some h
    have hlt : b.toNat - 48 < 10 := by unfold IsDigit at hb; omega
    by_cases hne : front = []
    · subst hne
      obtain rfl : 0 = m := Option.some.inj hm
      rw [Nat.mul_zero, Nat.zero_add, ofNat_of_lt hlt, ← hb.eq_digit, List.nil_append]
    · obtain ⟨hfront, hzero⟩ := hcanonical.of_concat hne
      have heq : front = ofNat m := ih hfront hm (by simpa using hlen)
      have hpos : m ≠ 0 := by
        rintro rfl
        exact hzero heq
      have hdiv : (10 * m + (b.toNat - 48)) / 10 = m := by omega
      have hmod : (10 * m + (b.toNat - 48)) % 10 = b.toNat - 48 := by omega
      rw [ofNat_of_le (by omega), hdiv, hmod, ← heq, ← hb.eq_digit]

/-- **A number has one decimal text**: the canonical row of digits whose value it is. -/
theorem eq_ofNat_iff {digits : Bytes} {n : Nat} :
    digits = ofNat n ↔ Canonical digits ∧ value? digits = some n := by
  constructor
  · rintro rfl
    exact ⟨canonical_ofNat n, value?_ofNat n⟩
  · rintro ⟨hcanonical, hvalue⟩
    exact eq_ofNat_of_value? hcanonical hvalue

/-! ## with a sign -/

/-- A row that starts with a digit is read without a sign. -/
theorem toInt?_of_isDigit {b : UInt8} {rest : Bytes} {n : Nat} (hb : IsDigit b)
    (h : value? (b :: rest) = some n) : toInt? (b :: rest) = some (n : Int) := by
  have hsign : b ≠ 45 ∧ b ≠ 43 := by
    constructor
    · rintro rfl
      exact absurd hb.1 (by decide)
    · rintro rfl
      exact absurd hb.1 (by decide)
  rw [toInt?, h]
  · rfl
  · exact List.cons_ne_nil b rest
  · exact fun digits heq => hsign.1 (List.cons.inj heq).1
  · exact fun digits heq => hsign.2 (List.cons.inj heq).1

theorem toInt?_minus {digits : Bytes} {n : Nat} (hne : digits ≠ [])
    (h : value? digits = some n) : toInt? (45 :: digits) = some (-(n : Int)) := by
  rw [toInt?, if_neg hne, h]
  rfl

/-- A signed number is read as it was written. -/
theorem toInt?_ofInt (n : Int) : toInt? (ofInt n) = some n := by
  cases n with
  | ofNat n =>
    obtain ⟨b, rest, hdigits⟩ := List.exists_cons_of_ne_nil (ofNat_ne_nil n)
    have hb : IsDigit b := isDigit_of_mem_ofNat (hdigits ▸ List.mem_cons_self)
    have hvalue : value? (b :: rest) = some n := hdigits ▸ value?_ofNat n
    rw [ofInt, hdigits, toInt?_of_isDigit hb hvalue]
    rfl
  | negSucc n => exact toInt?_minus (ofNat_ne_nil (n + 1)) (value?_ofNat (n + 1))

/-- **Integers have different texts.** -/
theorem ofInt_inj {m n : Int} : ofInt m = ofInt n ↔ m = n := by
  constructor
  · intro h
    have hread := congrArg toInt? h
    rw [toInt?_ofInt, toInt?_ofInt] at hread
    exact Option.some.inj hread
  · exact congrArg ofInt

end Decimal

end ArgLine
