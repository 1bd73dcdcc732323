import ArgLine.Text.Utf8

/-!
# ArgLine.Proofs.Text.Utf8

The lenient reading finds exactly the characters that are there.

* `Form` gives the bytes of a character in numbers, one constructor for each length, and `form_iff`
  ties it to the encoding.
* `leading?_eq_some_iff`: a text is read as starting with a character exactly if it starts with the
  character's encoding.
-/

namespace ArgLine

namespace Utf8

/-- The bytes of the code point `n` in its shortest form. -/
inductive Form (n : Nat) : Bytes → Prop where
  | one {b : UInt8} (hn : n ≤ 0x7F) (hb : b.toNat = n) : Form n [b]
  | two {b c : UInt8} (hlow : 0x7F < n) (hhigh : n ≤ 0x7FF) (hb : b.toNat = n / 64 + 0xC0)
      (hc : c.toNat = n % 64 + 0x80) : Form n [b, c]
  | three {b c d : UInt8} (hlow : 0x7FF < n) (hhigh : n ≤ 0xFFFF)
      (hb : b.toNat = n / 4096 + 0xE0) (hc : c.toNat = n / 64 % 64 + 0x80)
      (hd : d.toNat = n % 64 + 0x80) : Form n [b, c, d]
  | four {b c d e : UInt8} (hlow : 0xFFFF < n) (hb : b.toNat = n / 262144 + 0xF0)
      (hc : c.toNat = n / 4096 % 64 + 0x80) (hd : d.toNat = n / 64 % 64 + 0x80)
      (he : e.toNat = n % 64 + 0x80) : Form n [b, c, d, e]

theorem toNat_lt (c : Char) : c.toNat < 0x110000 := by
  have h := c.valid
  change c.toNat < 0xD800 ∨ 0xDFFF < c.toNat ∧ c.toNat < 0x110000 at h
  omega

/-- A character's encoding has the form of its code point. -/
theorem form_encode (c : Char) : Form c.toNat (String.utf8EncodeChar c) := by
  have hlt := toNat_lt c
  have hval : c.val.toNat = c.toNat := rfl
  unfold String.utf8EncodeChar
  simp only [hval]
  split
  · next h => exact .one h (by rw [UInt8.toNat_ofNat']; omega)
  · split
    · next h =>
      exact .two (by omega) h (by rw [UInt8.toNat_ofNat']; omega)
        (by rw [UInt8.toNat_ofNat']; omega)
    · split
      · next h =>
        exact .three (by omega) h (by rw [UInt8.toNat_ofNat']; omega)
          (by rw [UInt8.toNat_ofNat']; omega) (by rw [UInt8.toNat_ofNat']; omega)
      · exact .four (by omega) (by rw [UInt8.toNat_ofNat']; omega)
          (by rw [UInt8.toNat_ofNat']; omega) (by rw [UInt8.toNat_ofNat']; omega)
          (by rw [UInt8.toNat_ofNat']; omega)

/-- A code point has one form. -/
theorem Form.unique {n : Nat} {xs ys : Bytes} (hx : Form n xs) (hy : Form n ys) : xs = ys := by
  have hbyte : ∀ {x y : UInt8} {m : Nat}, x.toNat = m → y.toNat = m → x = y :=
    fun h h' => UInt8.toNat.inj (h.trans h'.symm)
  cases hx with
  | one hn hb =>
    cases hy with
    | one _ hb' => rw [hbyte hb hb']
    | _ => omega
  | two _ _ hb hc =>
    cases hy with
    | two _ _ hb' hc' => rw [hbyte hb hb', hbyte hc hc']
    | _ => omega
  | three _ _ hb hc hd =>
    cases hy with
    | three _ _ hb' hc' hd' => rw [hbyte hb hb', hbyte hc hc', hbyte hd hd']
    | _ => omega
  | four _ hb hc hd he =>
    cases hy with
    | four _ hb' hc' hd' he' => rw [hbyte hb hb', hbyte hc hc', hbyte hd hd', hbyte he he']
    | _ => omega

/-- The form of a character is its encoding. -/
theorem form_iff {c : Char} {bytes : Bytes} :
    Form c.toNat bytes ↔ bytes = String.utf8EncodeChar c := by
  constructor
  · intro h
    exact h.unique (form_encode c)
  · rintro rfl
    exact form_encode c

/-- The first byte of a character is its code point or, as the code point, outside ASCII.  The
bytes after it are outside ASCII. -/
theorem exists_encode_eq_cons (c : Char) :
    ∃ b tail, String.utf8EncodeChar c = b :: tail ∧
      (b.toNat = c.toNat ∨ 0x80 ≤ b.toNat ∧ 0x80 ≤ c.toNat) ∧ ∀ x ∈ tail, 0x80 ≤ x.toNat := by
  have h := form_encode c
  generalize String.utf8EncodeChar c = bytes at h
  cases h with
  | one _ hb => exact ⟨_, _, rfl, Or.inl hb, by simp⟩
  | two => exact ⟨_, _, rfl, Or.inr (by omega), by simp; omega⟩
  | three => exact ⟨_, _, rfl, Or.inr (by omega), by simp; omega⟩
  | four => exact ⟨_, _, rfl, Or.inr (by omega), by simp; omega⟩

/-! ## reading a character -/

theorem toNat_ofNat {n : Nat} (h : n.isValidChar) : (Char.ofNat n).toNat = n := by
  rw [Char.ofNat, dif_pos h]
  rfl

theorem continues_iff {b : UInt8} : continues b = true ↔ 0x80 ≤ b.toNat ∧ b.toNat < 0xC0 := by
  rw [continues, Bool.and_eq_true, decide_eq_true_iff, decide_eq_true_iff]
  rfl

/-- A character comes of bytes that continue it, if its code point needs as many. -/
theorem ite_scalarFrom_eq_some_iff {continued : Bool} {least n : Nat} {c : Char} :
    (if continued = true then scalarFrom least n else none) = some c ↔
      continued = true ∧ least ≤ n ∧ c.toNat = n := by
  unfold scalarFrom
  constructor
  · intro h
    split at h
    · next hcont =>
      split at h
      · next hn =>
        obtain rfl := Option.some.inj h
        exact ⟨hcont, hn.1, toNat_ofNat hn.2⟩
      · contradiction
    · contradiction
  · rintro ⟨hcont, hleast, rfl⟩
    rw [if_pos hcont, if_pos ⟨hleast, c.valid⟩, Char.ofNat_toNat]

/-- A text that starts with the form of a character is read so. -/
theorem leading?_of_form {c : Char} {bytes : Bytes} (h : Form c.toNat bytes) (rest : Bytes) :
    leading? (bytes ++ rest) = some c := by
  have hlt := toNat_lt c
  cases h with
  | one hn hb =>
    simp only [List.cons_append, List.nil_append, leading?, UInt8.lt_iff_toNat_lt,
      UInt8.reduceToNat]
    rw [if_pos (by omega), hb, Char.ofNat_toNat]
  | two hlow hhigh hb hc =>
    simp only [List.cons_append, List.nil_append, leading?, UInt8.lt_iff_toNat_lt,
      UInt8.reduceToNat]
    rw [if_neg (by omega), if_neg (by omega), if_pos (by omega), ite_scalarFrom_eq_some_iff,
      continues_iff]
    omega
  | three hlow hhigh hb hc hd =>
    simp only [List.cons_append, List.nil_append, leading?, UInt8.lt_iff_toNat_lt,
      UInt8.reduceToNat]
    rw [if_neg (by omega), if_neg (by omega), if_neg (by omega), if_pos (by omega),
      ite_scalarFrom_eq_some_iff, Bool.and_eq_true, continues_iff, continues_iff]
    omega
  | four hlow hb hc hd he =>
    simp only [List.cons_append, List.nil_append, leading?, UInt8.lt_iff_toNat_lt,
      UInt8.reduceToNat]
    rw [if_neg (by omega), if_neg (by omega), if_neg (by omega), if_neg (by omega),
      if_pos (by omega), ite_scalarFrom_eq_some_iff, Bool.and_eq_true, Bool.and_eq_true,
      continues_iff, continues_iff, continues_iff]
    omega

/-- What is read as a character has its form. -/
theorem form_of_leading? {text : Bytes} {c : Char} (h : leading? text = some c) :
    ∃ bytes rest, text = bytes ++ rest ∧ Form c.toNat bytes := by
  -- the first byte tells how many follow, and each case has its own bytes
  cases text with
  | nil => contradiction
  | cons b rest =>
    simp only [leading?, UInt8.lt_iff_toNat_lt, UInt8.reduceToNat] at h
    split at h
    · next h80 =>
      obtain rfl := Option.some.inj h
      have hb : (Char.ofNat b.toNat).toNat = b.toNat := toNat_ofNat (Or.inl (by omega))
      exact ⟨[b], rest, rfl, .one (by omega) hb.symm⟩
    split at h
    · contradiction
    split at h
    · split at h
      · next x rest =>
        rw [ite_scalarFrom_eq_some_iff, continues_iff] at h
        exact ⟨[b, x], rest, rfl, .two (by omega) (by omega) (by omega) (by omega)⟩
      · contradiction
    split at h
    · split at h
      · next x y rest =>
        rw [ite_scalarFrom_eq_some_iff, Bool.and_eq_true, continues_iff, continues_iff] at h
        exact ⟨[b, x, y], rest, rfl,
          .three (by omega) (by omega) (by omega) (by omega) (by omega)⟩
      · contradiction
    split at h
    · split at h
      · next x y z rest =>
        rw [ite_scalarFrom_eq_some_iff, Bool.and_eq_true, Bool.and_eq_true, continues_iff,
          continues_iff, continues_iff] at h
        exact ⟨[b, x, y, z], rest, rfl,
          .four (by omega) (by omega) (by omega) (by omega) (by omega)⟩
      · contradiction
    · contradiction

/-- **A text is read as starting with a character** exactly if it starts with its encoding. -/
theorem leading?_eq_some_iff {text : Bytes} {c : Char} :
    leading? text = some c ↔ String.utf8EncodeChar c <+: text := by
  constructor
  · intro h
    obtain ⟨bytes, rest, rfl, hform⟩ := form_of_leading? h
    rw [← form_iff.1 hform]
    exact List.prefix_append bytes rest
  · rintro ⟨rest, rfl⟩
    exact leading?_of_form (form_encode c) rest

/-- A byte that starts no character lies outside ASCII. -/
theorem le_of_not_prefix {b : UInt8} {rest : Bytes}
    (h : ∀ c, ¬ String.utf8EncodeChar c <+: b :: rest) : 0x80 ≤ b.toNat := by
  have hnot : ¬ b.toNat < 0x80 := fun hb => h _ (leading?_eq_some_iff.1 (if_pos hb))
  omega

end Utf8

end ArgLine
