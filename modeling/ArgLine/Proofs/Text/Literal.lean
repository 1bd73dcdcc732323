import ArgLine.Text.Literal
import ArgLine.Proofs.Text.Utf8

/-!
# ArgLine.Proofs.Text.Literal

What literals denote, as a grammar, and that reading follows it.

* `Escape`, `Item`, `Interpreted` and `Denotes` are the grammar: an escape, a character or escape, the
  content of an interpreted literal, and a string literal.  Digits and letters are looked up in
  tables, numbers are built digit by digit, and characters are given by their encoding.
* `escape?_eq_some_iff`, `first?_eq_some_iff`, `interpreted?_eq_some_iff`: each reader takes exactly what the
  grammar has at its level, with the right length.
* `unquote?_eq_some_iff`: a text is read off a literal exactly if the literal denotes it, characters in
  single quotes apart.
* `malformed_iff`: what denotes no text is `Malformed` in one of four ways.
-/

namespace ArgLine

namespace Literal

/-! ## the grammar -/

/-- The byte is the hexadecimal digit for `x`, of either case. -/
def IsHexDigit (b : UInt8) (x : Nat) : Prop :=
  (ascii "0123456789abcdef")[x]? = some b ∨ (ascii "0123456789ABCDEF")[x]? = some b

/-- The byte is the octal digit for `x`. -/
def IsOctalDigit (b : UInt8) (x : Nat) : Prop := (ascii "01234567")[x]? = some b

/-- A row of hexadecimal digits, most significant first, and its number. -/
inductive HexNumber : Bytes → Nat → Prop where
  | nil : HexNumber [] 0
  | snoc {digits : Bytes} {n x : Nat} {b : UInt8} (h : HexNumber digits n) (hb : IsHexDigit b x) :
      HexNumber (digits ++ [b]) (16 * n + x)

/-- The letters that can follow a backslash between two `quote`s, each with the byte it stands for:
`a b f n r t v`, the backslash and the quote. -/
def letters (quote : UInt8) : List (UInt8 × UInt8) :=
  [(97, 7), (98, 8), (102, 12), (110, 10), (114, 13), (116, 9), (118, 11), (92, 92), (quote, quote)]

/-- What stands after the backslash of an escape, and what the escape denotes. -/
inductive Escape (quote : UInt8) : Bytes → Bytes → Prop where
  | letter {l v : UInt8} (h : (l, v) ∈ letters quote) : Escape quote [l] [v]
  /-- `x` and two hexadecimal digits denote a byte. -/
  | byte {digits : Bytes} {n : Nat} (hlen : digits.length = 2) (h : HexNumber digits n) :
      Escape quote (120 :: digits) [UInt8.ofNat n]
  /-- So do three octal digits up to 377. -/
  | octal {c d e : UInt8} {x y z : Nat} (hc : IsOctalDigit c x) (hd : IsOctalDigit d y)
      (he : IsOctalDigit e z) (h : 64 * x + 8 * y + z ≤ 255) :
      Escape quote [c, d, e] [UInt8.ofNat (64 * x + 8 * y + z)]
  /-- `u` and four hexadecimal digits denote a character by its code point. -/
  | short {digits : Bytes} {c : Char} (hlen : digits.length = 4) (h : HexNumber digits c.toNat) :
      Escape quote (117 :: digits) (String.utf8EncodeChar c)
  /-- So do `U` and eight. -/
  | long {digits : Bytes} {c : Char} (hlen : digits.length = 8) (h : HexNumber digits c.toNat) :
      Escape quote (85 :: digits) (String.utf8EncodeChar c)

/-- A character or an escape between two `quote`s, before `rest`, and what it denotes. -/
inductive Item (quote : UInt8) (rest : Bytes) : Bytes → Bytes → Prop where
  /-- A character denotes itself, unless it is the quote, a newline or a backslash. -/
  | char {c : Char} (hquote : c.toNat ≠ quote.toNat) (hnewline : c ≠ '\n') (hback : c ≠ '\\') :
      Item quote rest (String.utf8EncodeChar c) (String.utf8EncodeChar c)
  | escape {code denoted : Bytes} (h : Escape quote code denoted) :
      Item quote rest (92 :: code) denoted
  /-- A byte that starts no character denotes the replacement character. -/
  | stray {b : UInt8} (h : ∀ c, ¬ String.utf8EncodeChar c <+: b :: rest) :
      Item quote rest [b] (String.utf8EncodeChar (Char.ofNat 0xFFFD))

/-- The content of an interpreted literal, and the text it denotes. -/
inductive Interpreted : Bytes → Bytes → Prop where
  | nil : Interpreted [] []
  | cons {item denoted rest text : Bytes} (h : Item 34 rest item denoted)
      (hrest : Interpreted rest text) : Interpreted (item ++ rest) (denoted ++ text)

/-- A string literal, and the text it denotes. -/
inductive Denotes : Bytes → Bytes → Prop where
  /-- Backquotes around anything without a backquote; carriage returns do not count. -/
  | raw {content : Bytes} (h : 96 ∉ content) :
      Denotes (96 :: (content ++ [96])) (content.filter (· ≠ 13))
  /-- Double quotes around characters and escapes. -/
  | interpreted {content text : Bytes} (h : Interpreted content text) :
      Denotes (34 :: (content ++ [34])) text

/-! ## digits -/

theorem isHexDigit_iff {b : UInt8} {x : Nat} :
    IsHexDigit b x ↔
      x < 10 ∧ b.toNat = 48 + x ∨ 10 ≤ x ∧ x < 16 ∧ (b.toNat = 87 + x ∨ b.toNat = 55 + x) := by
  have hlower : ∀ x < 16, (ascii "0123456789abcdef")[x]? =
      some (UInt8.ofNat (if x < 10 then 48 + x else 87 + x)) := by decide
  have hupper : ∀ x < 16, (ascii "0123456789ABCDEF")[x]? =
      some (UInt8.ofNat (if x < 10 then 48 + x else 55 + x)) := by decide
  unfold IsHexDigit
  by_cases hx : x < 16
  · rw [hlower x hx, hupper x hx, Option.some_inj, Option.some_inj, ← UInt8.toNat_inj,
      ← UInt8.toNat_inj, UInt8.toNat_ofNat', UInt8.toNat_ofNat']
    split <;> omega
  · have hlower' : (ascii "0123456789abcdef")[x]? = none :=
      List.getElem?_eq_none (Nat.le_of_not_lt hx)
    have hupper' : (ascii "0123456789ABCDEF")[x]? = none :=
      List.getElem?_eq_none (Nat.le_of_not_lt hx)
    rw [hlower', hupper']
    simp only [reduceCtorEq, or_self, false_iff]
    omega

theorem digit?_eq_some_iff {b : UInt8} {x : Nat} :
    Hexadecimal.digit? b = some x ↔ IsHexDigit b x := by
  rw [isHexDigit_iff]
  simp only [Hexadecimal.digit?, UInt8.le_iff_toNat_le, UInt8.reduceToNat]
  split
  · rw [Option.some_inj]; omega
  · split
    · rw [Option.some_inj]; omega
    · split
      · rw [Option.some_inj]; omega
      · simp only [reduceCtorEq, false_iff]
        omega

theorem octal?_eq_some_iff {b : UInt8} {x : Nat} : octal? b = some x ↔ IsOctalDigit b x := by
  have htable : ∀ x < 8, (ascii "01234567")[x]? = some (UInt8.ofNat (48 + x)) := by decide
  simp only [octal?, UInt8.le_iff_toNat_le, UInt8.reduceToNat]
  unfold IsOctalDigit
  by_cases hx : x < 8
  · rw [htable x hx, Option.some_inj, ← UInt8.toNat_inj, UInt8.toNat_ofNat']
    split
    · rw [Option.some_inj]; omega
    · simp only [reduceCtorEq, false_iff]
      omega
  · have hnone : (ascii "01234567")[x]? = none := List.getElem?_eq_none (Nat.le_of_not_lt hx)
    rw [hnone]
    simp only [reduceCtorEq, iff_false]
    split
    · rw [Option.some_inj]; omega
    · simp

theorem value?_concat (digits : Bytes) (b : UInt8) :
    Hexadecimal.value? (digits ++ [b]) =
      (Hexadecimal.value? digits).bind fun n => (Hexadecimal.digit? b).map (16 * n + ·) := by
  unfold Hexadecimal.value?
  rw [List.foldlM_append]
  simp

theorem value?_of_hexNumber {digits : Bytes} {n : Nat} (h : HexNumber digits n) :
    Hexadecimal.value? digits = some n := by
  induction h with
  | nil => rfl
  | snoc _ hb ih =>
    rw [value?_concat, ih, Option.bind_some, digit?_eq_some_iff.2 hb, Option.map_some]

theorem hexNumber_of_value? {digits : Bytes} {n : Nat} (h : Hexadecimal.value? digits = some n) :
    HexNumber digits n := by
  induction hlen : digits.length generalizing digits n with
  | zero =>
    obtain rfl := List.length_eq_zero_iff.1 hlen
    obtain rfl := Option.some.inj h
    exact .nil
  | succ k ih =>
    obtain ⟨front, b, hdigits⟩ := (List.eq_nil_or_concat digits).resolve_left (by
      rintro rfl
      contradiction)
    rw [List.concat_eq_append] at hdigits
    subst hdigits
    rw [value?_concat, Option.bind_eq_some_iff] at h
    obtain ⟨m, hm, h⟩ := h
    obtain ⟨x, hx, rfl⟩ := Option.map_eq_some_iff.1 h
    exact .snoc (ih hm (by simpa using hlen)) (digit?_eq_some_iff.1 hx)

/-- **Hexadecimal numbers** are read exactly as they are written. -/
theorem value?_eq_some_iff {digits : Bytes} {n : Nat} :
    Hexadecimal.value? digits = some n ↔ HexNumber digits n :=
  ⟨hexNumber_of_value?, value?_of_hexNumber⟩

/-- The digits of a character are those of its code point. -/
theorem codePoint?_eq_some_iff {digits denoted : Bytes} :
    (Hexadecimal.value? digits).bind codePoint? = some denoted ↔
      ∃ c : Char, HexNumber digits c.toNat ∧ denoted = String.utf8EncodeChar c := by
  rw [Option.bind_eq_some_iff]
  unfold codePoint?
  constructor
  · rintro ⟨n, hn, h⟩
    split at h
    · next hvalid =>
      obtain rfl := Option.some.inj h
      refine ⟨Char.ofNat n, ?_, rfl⟩
      rw [Utf8.toNat_ofNat hvalid]
      exact value?_eq_some_iff.1 hn
    · contradiction
  · rintro ⟨c, hc, rfl⟩
    have hvalid : c.toNat.isValidChar := c.valid
    exact ⟨c.toNat, value?_eq_some_iff.2 hc, by rw [if_pos hvalid, Char.ofNat_toNat]⟩

/-! ## escapes -/

/-- The letters that stand for a byte are those of the table. -/
theorem letterByte?_eq_some_iff {quote l v : UInt8} (hq : quote = 34 ∨ quote = 39) :
    letterByte? quote l = some v ↔ (l, v) ∈ letters quote := by
  have hmem : (l, v) ∈ letters quote ↔ (l.toNat = 97 ∧ v = 7 ∨ l.toNat = 98 ∧ v = 8 ∨
      l.toNat = 102 ∧ v = 12 ∨ l.toNat = 110 ∧ v = 10 ∨ l.toNat = 114 ∧ v = 13 ∨
      l.toNat = 116 ∧ v = 9 ∨ l.toNat = 118 ∧ v = 11 ∨ l.toNat = 92 ∧ v = 92) ∨
      l = quote ∧ v = quote := by
    simp [letters, ← UInt8.toNat_inj, or_assoc]
  -- neither quote is one of the other letters
  have hquote : l = quote → l.toNat = 34 ∨ l.toNat = 39 := by
    rintro rfl
    rcases hq with rfl | rfl
    · exact Or.inl rfl
    · exact Or.inr rfl
  rw [hmem]
  unfold letterByte?
  split <;> grind

/-- A letter is no digit and does not announce digits. -/
theorem letter_cases {quote l v : UInt8} (hq : quote = 34 ∨ quote = 39)
    (h : (l, v) ∈ letters quote) : l ≠ 120 ∧ l ≠ 117 ∧ l ≠ 85 ∧ octal? l = none := by
  have hall : ((letters quote).all fun p =>
      p.1 != 120 && (p.1 != 117 && (p.1 != 85 && (octal? p.1).isNone))) = true := by
    rcases hq with rfl | rfl <;> rfl
  simpa using List.all_eq_true.1 hall (l, v) h

/-- No octal digit is a letter that starts another escape. -/
theorem IsOctalDigit.ne {b : UInt8} {x : Nat} (h : IsOctalDigit b x) :
    b ≠ 120 ∧ b ≠ 117 ∧ b ≠ 85 := by
  rw [← octal?_eq_some_iff] at h
  refine ⟨?_, ?_, ?_⟩ <;> rintro rfl <;> contradiction

/-- An escape is read, whatever follows it. -/
theorem escape?_of_escape {quote : UInt8} (hq : quote = 34 ∨ quote = 39) {code denoted : Bytes}
    (h : Escape quote code denoted) (rest : Bytes) :
    escape? quote (code ++ rest) = some (denoted, code.length) := by
  cases h with
  | letter h =>
    obtain ⟨hx, hu, hU, hoctal⟩ := letter_cases hq h
    simp [escape?, hoctal, (letterByte?_eq_some_iff hq).2 h]
  | byte hlen h => simp [escape?, ← hlen, value?_eq_some_iff.2 h]
  | octal hc hd he h =>
    obtain ⟨hx, hu, hU⟩ := hc.ne
    simp [escape?, octal?_eq_some_iff.2 hc, octal?_eq_some_iff.2 hd, octal?_eq_some_iff.2 he, h]
  | short hlen h =>
    have hpoint := codePoint?_eq_some_iff.2 ⟨_, h, rfl⟩
    simp [escape?, ← hlen, hpoint]
  | long hlen h =>
    have hpoint := codePoint?_eq_some_iff.2 ⟨_, h, rfl⟩
    simp [escape?, ← hlen, hpoint]

/-- Digits that are read as a character are there, and are those of its code point. -/
theorem exists_of_codePoint?_take {k width : Nat} {rest denoted : Bytes}
    (h : (if k ≤ rest.length then
        ((Hexadecimal.value? (rest.take k)).bind codePoint?).map (·, k + 1)
      else none) = some (denoted, width)) :
    (rest.take k).length = k ∧ width = k + 1 ∧
      ∃ c : Char, HexNumber (rest.take k) c.toNat ∧ denoted = String.utf8EncodeChar c := by
  split at h
  · next hlen =>
    obtain ⟨bytes, hbytes, hpair⟩ := Option.map_eq_some_iff.1 h
    obtain ⟨rfl, rfl⟩ := Prod.mk.inj hpair
    exact ⟨List.length_take_of_le hlen, rfl, codePoint?_eq_some_iff.1 hbytes⟩
  · contradiction

/-- What is read as an escape is one, at the start of the text. -/
theorem escape_of_escape? {quote : UInt8} (hq : quote = 34 ∨ quote = 39) {text denoted : Bytes}
    {width : Nat} (h : escape? quote text = some (denoted, width)) :
    ∃ code rest, text = code ++ rest ∧ width = code.length ∧ Escape quote code denoted := by
  unfold escape? at h
  split at h
  · contradiction
  · next rest =>
    split at h
    · next hlen =>
      obtain ⟨n, hn, hpair⟩ := Option.map_eq_some_iff.1 h
      obtain ⟨rfl, rfl⟩ := Prod.mk.inj hpair
      have hdigits : (rest.take 2).length = 2 := List.length_take_of_le hlen
      exact ⟨120 :: rest.take 2, rest.drop 2, by simp, by simp [hdigits],
        .byte hdigits (value?_eq_some_iff.1 hn)⟩
    · contradiction
  · next rest =>
    obtain ⟨hdigits, rfl, c, hc, rfl⟩ := exists_of_codePoint?_take h
    exact ⟨117 :: rest.take 4, rest.drop 4, by simp, by simp [hdigits], .short hdigits hc⟩
  · next rest =>
    obtain ⟨hdigits, rfl, c, hc, rfl⟩ := exists_of_codePoint?_take h
    exact ⟨85 :: rest.take 8, rest.drop 8, by simp, by simp [hdigits], .long hdigits hc⟩
  · next b rest _ _ _ =>
    split at h
    · next x c d tail hx =>
      split at h
      · next y z hy hz =>
        split at h
        · next hle =>
          obtain ⟨rfl, rfl⟩ := Prod.mk.inj (Option.some.inj h)
          exact ⟨[b, c, d], tail, rfl, rfl, .octal (octal?_eq_some_iff.1 hx)
            (octal?_eq_some_iff.1 hy) (octal?_eq_some_iff.1 hz) hle⟩
        · contradiction
      · contradiction
    · contradiction
    · obtain ⟨v, hv, hpair⟩ := Option.map_eq_some_iff.1 h
      obtain ⟨rfl, rfl⟩ := Prod.mk.inj hpair
      exact ⟨[b], _, rfl, rfl, .letter ((letterByte?_eq_some_iff hq).1 hv)⟩

/-- An escape is read exactly if it stands there, and to its end. -/
theorem escape?_eq_some_iff {quote : UInt8} (hq : quote = 34 ∨ quote = 39) {text denoted : Bytes}
    {width : Nat} :
    escape? quote text = some (denoted, width) ↔
      ∃ code rest, text = code ++ rest ∧ width = code.length ∧ Escape quote code denoted := by
  constructor
  · exact escape_of_escape? hq
  · rintro ⟨code, rest, rfl, rfl, h⟩
    exact escape?_of_escape hq h rest

/-! ## characters and escapes -/

/-- A character may stand for itself exactly if its first byte may. -/
theorem plain_iff {quote b : UInt8} (hq : quote = 34 ∨ quote = 39) {c : Char} {tail : Bytes}
    (hbytes : String.utf8EncodeChar c = b :: tail) :
    ¬ (b = quote ∨ b = Bytes.newline) ∧ b ≠ 92 ↔
      c.toNat ≠ quote.toNat ∧ c ≠ '\n' ∧ c ≠ '\\' := by
  have hquote : quote.toNat = 34 ∨ quote.toNat = 39 := by
    rcases hq with rfl | rfl
    · exact Or.inl rfl
    · exact Or.inr rfl
  have hnewline : b = Bytes.newline ↔ b.toNat = 10 := UInt8.toNat_inj.symm
  have hback : b = 92 ↔ b.toNat = 92 := UInt8.toNat_inj.symm
  have hnewline' : c = '\n' ↔ c.toNat = 10 := Char.toNat_inj.symm
  have hback' : c = '\\' ↔ c.toNat = 92 := Char.toNat_inj.symm
  obtain ⟨b', tail', hbytes', hb, -⟩ := Utf8.exists_encode_eq_cons c
  obtain ⟨rfl, -⟩ := List.cons.inj (hbytes.symm.trans hbytes')
  rw [← UInt8.toNat_inj, hnewline, Ne, hback, Ne, Ne, Ne, hnewline', hback']
  omega

/-- A byte outside ASCII is neither quote, newline nor backslash. -/
theorem ne_of_le {quote b : UInt8} (hq : quote = 34 ∨ quote = 39) (hb : 0x80 ≤ b.toNat) :
    ¬ (b = quote ∨ b = Bytes.newline) ∧ b ≠ 92 := by
  constructor
  · rintro (rfl | rfl)
    · rcases hq with rfl | rfl <;> exact absurd hb (by decide)
    · exact absurd hb (by decide)
  · rintro rfl
    exact absurd hb (by decide)

/-- An item is read if its rest follows it. -/
theorem first?_of_item {quote : UInt8} (hq : quote = 34 ∨ quote = 39) {rest item denoted : Bytes}
    (h : Item quote rest item denoted) :
    first? quote (item ++ rest) = some (denoted, item.length) := by
  cases h with
  | @char c hquote hnewline hback =>
    have hlead := Utf8.leading?_of_form (Utf8.form_encode c) rest
    obtain ⟨b, tail, hbytes, -⟩ := Utf8.exists_encode_eq_cons c
    obtain ⟨hend, hne⟩ := (plain_iff hq hbytes).2 ⟨hquote, hnewline, hback⟩
    have htext : String.utf8EncodeChar c ++ rest = b :: (tail ++ rest) := by rw [hbytes]; rfl
    rw [String.length_utf8EncodeChar]
    rw [htext] at hlead ⊢
    rw [first?, if_neg hend, if_neg hne, hlead]
  | @escape code _ h =>
    have hescape := escape?_of_escape hq h rest
    have hne : ¬ (92 = quote ∨ (92 : UInt8) = Bytes.newline) := by
      rcases hq with rfl | rfl <;> decide
    rw [List.cons_append, first?, if_neg hne, if_pos rfl, hescape]
    rfl
  | @stray b h =>
    obtain ⟨hend, hne⟩ := ne_of_le hq (Utf8.le_of_not_prefix h)
    have hnone : Utf8.leading? (b :: rest) = none := by
      rw [Option.eq_none_iff_forall_not_mem]
      intro c hc
      exact h c (Utf8.leading?_eq_some_iff.1 hc)
    rw [List.singleton_append, first?, if_neg hend, if_neg hne, hnone]
    rfl

/-- What is read first is an item, with its rest behind it. -/
theorem item_of_first? {quote : UInt8} (hq : quote = 34 ∨ quote = 39) {text denoted : Bytes}
    {width : Nat} (h : first? quote text = some (denoted, width)) :
    ∃ item rest, text = item ++ rest ∧ width = item.length ∧ Item quote rest item denoted := by
  unfold first? at h
  split at h
  · contradiction
  next b rest =>
  split at h
  · contradiction
  next hend =>
  split at h
  · next hback =>
    obtain ⟨e, he, hpair⟩ := Option.map_eq_some_iff.1 h
    obtain ⟨rfl, rfl⟩ := Prod.mk.inj hpair
    obtain ⟨code, tail, rfl, hwidth, hcode⟩ := (escape?_eq_some_iff hq).1 he
    exact ⟨92 :: code, tail, by rw [hback]; rfl, by rw [hwidth]; rfl, .escape hcode⟩
  next hback =>
  split at h
  · next c hlead =>
    obtain ⟨rfl, rfl⟩ := Prod.mk.inj (Option.some.inj h)
    obtain ⟨tail, htail⟩ := Utf8.leading?_eq_some_iff.1 hlead
    obtain ⟨b', tail', hbytes, -⟩ := Utf8.exists_encode_eq_cons c
    rw [hbytes] at htail
    obtain ⟨rfl, -⟩ := List.cons.inj htail
    obtain ⟨hquote, hnewline, hslash⟩ := (plain_iff hq hbytes).1 ⟨hend, hback⟩
    refine ⟨String.utf8EncodeChar c, tail, ?_, (String.length_utf8EncodeChar c).symm,
      .char hquote hnewline hslash⟩
    rw [hbytes, htail]
  · next hlead =>
    obtain ⟨rfl, rfl⟩ := Prod.mk.inj (Option.some.inj h)
    refine ⟨[b], rest, rfl, rfl, .stray fun c hc => ?_⟩
    rw [Utf8.leading?_eq_some_iff.2 hc] at hlead
    contradiction

/-- A character or escape is read exactly if it stands there, and to its end. -/
theorem first?_eq_some_iff {quote : UInt8} (hq : quote = 34 ∨ quote = 39) {text denoted : Bytes}
    {width : Nat} :
    first? quote text = some (denoted, width) ↔
      ∃ item rest, text = item ++ rest ∧ width = item.length ∧ Item quote rest item denoted := by
  constructor
  · exact item_of_first? hq
  · rintro ⟨item, rest, rfl, rfl, h⟩
    exact first?_of_item hq h

theorem Item.ne_nil {quote : UInt8} {rest item denoted : Bytes}
    (h : Item quote rest item denoted) : item ≠ [] := by
  cases h with
  | @char c =>
    obtain ⟨b, tail, hbytes, -⟩ := Utf8.exists_encode_eq_cons c
    simp [hbytes]
  | escape => simp
  | stray => simp

/-! ## literals -/

/-- What was read is passed over, and the rest is interpreted. -/
theorem interpretedAfter?_append (front rest : Bytes) :
    interpretedAfter? front.length (front ++ rest) = interpreted? rest := by
  induction front with
  | nil => rfl
  | cons b front ih => exact ih

/-- Content that starts with an item denotes what the item denotes, and what the rest does. -/
theorem interpreted?_item {rest item denoted : Bytes} (h : Item 34 rest item denoted) :
    interpreted? (item ++ rest) = (interpreted? rest).map (denoted ++ ·) := by
  have hfirst := first?_of_item (Or.inl rfl) h
  obtain ⟨b, tail, rfl⟩ := List.exists_cons_of_ne_nil h.ne_nil
  have hrest : interpretedAfter? ((b :: tail).length - 1) (tail ++ rest) = interpreted? rest :=
    interpretedAfter?_append tail rest
  rw [interpreted?, List.cons_append, interpretedAfter?, ← List.cons_append, hfirst]
  simp only [hrest]

/-- No character and no escape can be read at the start of a text. -/
def Stuck (text : Bytes) : Prop :=
  text ≠ [] ∧ ∀ item rest denoted, text = item ++ rest → ¬ Item 34 rest item denoted

/-- Induction over a content: it is empty, starts with an item, or is stuck. -/
@[elab_as_elim]
theorem contentInduction {motive : Bytes → Prop} (nil : motive [])
    (item : ∀ {item rest denoted : Bytes}, Item 34 rest item denoted → motive rest →
      motive (item ++ rest))
    (stuck : ∀ {bad : Bytes}, Stuck bad → motive bad) (content : Bytes) : motive content := by
  induction hlen : content.length using Nat.strongRecOn generalizing content with
  | ind n ih =>
    by_cases hne : content = []
    · exact hne ▸ nil
    · cases hfirst : first? 34 content with
      | none =>
        refine stuck ⟨hne, fun front rest denoted htext hitem => ?_⟩
        rw [htext, first?_of_item (Or.inl rfl) hitem] at hfirst
        contradiction
      | some e =>
        obtain ⟨front, rest, rfl, -, hitem⟩ := (first?_eq_some_iff (Or.inl rfl)).1 hfirst
        have hpos := List.length_pos_iff.2 hitem.ne_nil
        rw [List.length_append] at hlen
        exact item hitem (ih rest.length (by omega) rest rfl)

theorem first?_of_stuck {text : Bytes} (h : Stuck text) : first? 34 text = none := by
  rw [Option.eq_none_iff_forall_not_mem]
  intro e he
  obtain ⟨item, rest, htext, -, hitem⟩ := (first?_eq_some_iff (Or.inl rfl)).1 he
  exact h.2 item rest e.1 htext hitem

theorem interpreted?_of_stuck {text : Bytes} (h : Stuck text) : interpreted? text = none := by
  obtain ⟨b, tail, rfl⟩ := List.exists_cons_of_ne_nil h.1
  rw [interpreted?, interpretedAfter?, first?_of_stuck h]

theorem interpreted_of_interpreted? {content text : Bytes} (h : interpreted? content = some text) :
    Interpreted content text := by
  induction content using contentInduction generalizing text with
  | nil =>
    obtain rfl := Option.some.inj h
    exact .nil
  | item hitem ih =>
    rw [interpreted?_item hitem] at h
    obtain ⟨more, hmore, rfl⟩ := Option.map_eq_some_iff.1 h
    exact .cons hitem (ih hmore)
  | stuck hbad =>
    rw [interpreted?_of_stuck hbad] at h
    contradiction

/-- The content of an interpreted literal is read exactly as the grammar has it. -/
theorem interpreted?_eq_some_iff {content text : Bytes} :
    interpreted? content = some text ↔ Interpreted content text := by
  constructor
  · exact interpreted_of_interpreted?
  · intro h
    induction h with
    | nil => rfl
    | cons hitem _ ih => rw [interpreted?_item hitem, ih, Option.map_some]

/-- Items one after the other, each one whatever follows it, denote what they denote one after the
other. -/
theorem interpreted_flatMap {items : List (Bytes × Bytes)}
    (h : ∀ i ∈ items, ∀ rest, Item 34 rest i.1 i.2) :
    Interpreted (items.flatMap Prod.fst) (items.flatMap Prod.snd) := by
  induction items with
  | nil => exact .nil
  | cons i items ih =>
    rw [List.flatMap_cons, List.flatMap_cons]
    exact .cons (h i (List.mem_cons_self ..) _) (ih fun j hj => h j (List.mem_cons_of_mem i hj))

/-- A content stands between two equal quotes. -/
theorem content?_eq_some_iff {literal content : Bytes} {quote : UInt8} :
    content? literal = some (quote, content) ↔ literal = quote :: (content ++ [quote]) := by
  unfold content?
  constructor
  · intro h
    split at h
    · next first rest =>
      split at h
      · next last hlast =>
        split at h
        · next heq =>
          obtain ⟨rfl, rfl⟩ := Prod.mk.inj (Option.some.inj h)
          obtain ⟨front, rfl⟩ := List.getLast?_eq_some_iff.1 hlast
          rw [List.dropLast_concat, heq]
        · contradiction
      · contradiction
    · contradiction
  · rintro rfl
    simp

/-- A raw content is taken as it is, without carriage returns. -/
theorem raw?_eq_some_iff {content text : Bytes} :
    raw? content = some text ↔ 96 ∉ content ∧ text = content.filter (· ≠ 13) := by
  unfold raw?
  split
  · next h => simp_all
  · next h => simp_all [eq_comm]

/-- An escape denotes one character at most, which has four bytes at most. -/
theorem Escape.length_le {quote : UInt8} {code denoted : Bytes} (h : Escape quote code denoted) :
    denoted.length ≤ 4 := by
  cases h with
  | letter => simp
  | byte => simp
  | octal => simp
  | short => exact String.length_utf8EncodeChar _ ▸ Char.utf8Size_le_four _
  | long => exact String.length_utf8EncodeChar _ ▸ Char.utf8Size_le_four _

theorem Item.length_le {quote : UInt8} {rest item denoted : Bytes}
    (h : Item quote rest item denoted) : denoted.length ≤ 4 := by
  cases h with
  | char => exact String.length_utf8EncodeChar _ ▸ Char.utf8Size_le_four _
  | escape h => exact h.length_le
  | stray => exact String.length_utf8EncodeChar _ ▸ Char.utf8Size_le_four _

/-- A character in single quotes denotes at most four bytes. -/
theorem length_le_of_character? {content text : Bytes} (h : character? content = some text) :
    text.length ≤ 4 := by
  unfold character? at h
  split at h
  · next denoted width hfirst =>
    split at h
    · obtain rfl := Option.some.inj h
      obtain ⟨item, rest, -, -, hitem⟩ := (first?_eq_some_iff (Or.inr rfl)).1 hfirst
      exact hitem.length_le
    · contradiction
  · contradiction

/-- **A text is read off a literal** exactly if the literal denotes it, or is a character in single
quotes. -/
theorem unquote?_eq_some_iff {literal text : Bytes} :
    unquote? literal = some text ↔
      Denotes literal text ∨
        ∃ content, literal = 39 :: (content ++ [39]) ∧ character? content = some text := by
  constructor
  · intro h
    unfold unquote? at h
    split at h
    · next content hcontent =>
      rw [content?_eq_some_iff.1 hcontent]
      exact Or.inl (.interpreted (interpreted_of_interpreted? h))
    · next content hcontent =>
      obtain ⟨hback, rfl⟩ := raw?_eq_some_iff.1 h
      rw [content?_eq_some_iff.1 hcontent]
      exact Or.inl (.raw hback)
    · next content hcontent => exact Or.inr ⟨content, content?_eq_some_iff.1 hcontent, h⟩
    · contradiction
  · rintro (h | ⟨content, rfl, h⟩)
    · cases h with
      | raw h => rw [unquote?, content?_eq_some_iff.2 rfl]; exact raw?_eq_some_iff.2 ⟨h, rfl⟩
      | interpreted h =>
        rw [unquote?, content?_eq_some_iff.2 rfl]
        exact interpreted?_eq_some_iff.2 h
    · rw [unquote?, content?_eq_some_iff.2 rfl]
      exact h

/-- A text of more than four bytes is read off the literals that denote it, and off no others. -/
theorem unquote?_eq_some_iff_of_lt {literal text : Bytes} (hlen : 4 < text.length) :
    unquote? literal = some text ↔ Denotes literal text := by
  rw [unquote?_eq_some_iff]
  refine ⟨fun h => h.resolve_right ?_, Or.inl⟩
  rintro ⟨content, -, h⟩
  have hle := length_le_of_character? h
  omega

/-! ## malformed literals -/

/-- A text that is no string literal, by what is wrong with it. -/
inductive Malformed : Bytes → Prop where
  /-- It does not stand between two quotes of one kind. -/
  | unpaired {literal : Bytes} (h : ∀ quote content, literal ≠ quote :: (content ++ [quote])) :
      Malformed literal
  /-- The quotes are not those of a string; single quotes stand around a character. -/
  | foreign {quote : UInt8} {content : Bytes} (hdouble : quote ≠ 34) (hback : quote ≠ 96) :
      Malformed (quote :: (content ++ [quote]))
  /-- There is a backquote between backquotes. -/
  | backquote {content : Bytes} (h : 96 ∈ content) : Malformed (96 :: (content ++ [96]))
  /-- After some characters and escapes comes what is neither: an escape that is unknown or cut
  short, a bare quote or a newline. -/
  | broken {front text bad : Bytes} (hfront : Interpreted front text) (hbad : Stuck bad) :
      Malformed (34 :: (front ++ bad ++ [34]))

/-- Where reading is stuck, there is an ASCII byte. -/
theorem Stuck.exists_cons {text : Bytes} (h : Stuck text) :
    ∃ b tail, text = b :: tail ∧ b.toNat < 0x80 := by
  obtain ⟨b, tail, rfl⟩ := List.exists_cons_of_ne_nil h.1
  refine ⟨b, tail, rfl, ?_⟩
  refine Nat.lt_of_not_le fun hb => ?_
  -- outside ASCII there is a character or a stray byte
  obtain ⟨hend, hne⟩ := ne_of_le (Or.inl rfl) hb
  have hnone := first?_of_stuck h
  rw [first?, if_neg hend, if_neg hne] at hnone
  split at hnone <;> contradiction

/-- Items stay items when ASCII follows the text. -/
theorem Item.append {quote b : UInt8} {rest item denoted tail : Bytes}
    (h : Item quote rest item denoted) (hb : b.toNat < 0x80) :
    Item quote (rest ++ b :: tail) item denoted := by
  cases h with
  | char hquote hnewline hback => exact .char hquote hnewline hback
  | escape h => exact .escape h
  | @stray x h =>
    refine .stray fun c hc => ?_
    by_cases hle : (String.utf8EncodeChar c).length ≤ (x :: rest).length
    · exact h c (List.prefix_of_prefix_length_le hc (List.prefix_append (x :: rest) _) hle)
    · -- the character would go on with the ASCII byte
      have hlong : x :: rest ++ [b] <+: String.utf8EncodeChar c :=
        List.prefix_of_prefix_length_le ⟨tail, by simp⟩ hc (by simp at hle ⊢; omega)
      obtain ⟨more, hmore⟩ := hlong
      obtain ⟨y, after, hbytes, -, hafter⟩ := Utf8.exists_encode_eq_cons c
      rw [hbytes] at hmore
      obtain ⟨-, rfl⟩ := List.cons.inj hmore
      have hge : 0x80 ≤ b.toNat := hafter b (by simp)
      omega

/-- An item is one also before less text. -/
theorem Item.of_append {quote : UInt8} {rest more item denoted : Bytes}
    (h : Item quote (rest ++ more) item denoted) : Item quote rest item denoted := by
  cases h with
  | char hquote hnewline hback => exact .char hquote hnewline hback
  | escape h => exact .escape h
  | @stray x h => exact .stray fun c hc => h c (hc.trans (List.prefix_append (x :: rest) more))

/-- A text that gets stuck anywhere is not interpreted. -/
theorem interpreted?_append_stuck {front text bad : Bytes} (hfront : Interpreted front text)
    (hbad : Stuck bad) : interpreted? (front ++ bad) = none := by
  obtain ⟨b, tail, rfl, hb⟩ := hbad.exists_cons
  induction hfront with
  | nil => exact interpreted?_of_stuck hbad
  | cons hitem _ ih =>
    rw [List.append_assoc, interpreted?_item (hitem.append hb), ih, Option.map_none]

/-- A text that is not interpreted gets stuck somewhere. -/
theorem exists_stuck {content : Bytes} (h : interpreted? content = none) :
    ∃ front text bad, content = front ++ bad ∧ Interpreted front text ∧ Stuck bad := by
  induction content using contentInduction with
  | nil => contradiction
  | @item item rest denoted hitem ih =>
    rw [interpreted?_item hitem, Option.map_eq_none_iff] at h
    obtain ⟨front, text, bad, rfl, hfront, hbad⟩ := ih h
    exact ⟨item ++ front, denoted ++ text, bad, (List.append_assoc ..).symm,
      .cons hitem.of_append hfront, hbad⟩
  | @stuck bad hbad => exact ⟨[], [], bad, rfl, .nil, hbad⟩

/-- What denotes a text is raw or interpreted. -/
theorem Denotes.cases {literal text : Bytes} (h : Denotes literal text) :
    (∃ content, literal = 96 :: (content ++ [96]) ∧ 96 ∉ content) ∨
      ∃ content, literal = 34 :: (content ++ [34]) ∧ interpreted? content = some text := by
  cases h with
  | raw h => exact Or.inl ⟨_, rfl, h⟩
  | interpreted h => exact Or.inr ⟨_, rfl, interpreted?_eq_some_iff.2 h⟩

theorem quoted_inj {quote quote' : UInt8} {content content' : Bytes}
    (h : quote :: (content ++ [quote]) = quote' :: (content' ++ [quote'])) :
    quote = quote' ∧ content = content' := by
  obtain ⟨rfl, h⟩ := List.cons.inj h
  exact ⟨rfl, List.append_cancel_right h⟩

/-- A malformed literal denotes nothing. -/
theorem not_denotes_of_malformed {literal text : Bytes} (h : Malformed literal) :
    ¬ Denotes literal text := by
  intro hdenotes
  cases h with
  | unpaired h =>
    rcases hdenotes.cases with ⟨content, rfl, -⟩ | ⟨content, rfl, -⟩
    · exact h 96 content rfl
    · exact h 34 content rfl
  | foreign hdouble hback =>
    rcases hdenotes.cases with ⟨content, heq, -⟩ | ⟨content, heq, -⟩
    · exact hback (quoted_inj heq).1
    · exact hdouble (quoted_inj heq).1
  | backquote h =>
    rcases hdenotes.cases with ⟨content, heq, hnot⟩ | ⟨content, heq, -⟩
    · exact hnot ((quoted_inj heq).2 ▸ h)
    · exact absurd (quoted_inj heq).1 (by decide)
  | broken hfront hbad =>
    rcases hdenotes.cases with ⟨content, heq, -⟩ | ⟨content, heq, hcontent⟩
    · exact absurd (quoted_inj heq).1 (by decide)
    · rw [← (quoted_inj heq).2, interpreted?_append_stuck hfront hbad] at hcontent
      contradiction

/-- A text is a string literal or malformed, and never both. -/
theorem malformed_iff {literal : Bytes} :
    Malformed literal ↔ ∀ text, ¬ Denotes literal text := by
  refine ⟨fun h text => not_denotes_of_malformed h, fun h => ?_⟩
  cases hcontent : content? literal with
  | none =>
    refine .unpaired fun quote content heq => ?_
    rw [content?_eq_some_iff.2 heq] at hcontent
    contradiction
  | some pair =>
    obtain rfl := content?_eq_some_iff.1 hcontent
    by_cases hdouble : pair.1 = 34
    · rw [hdouble] at h ⊢
      cases hread : interpreted? pair.2 with
      | some text => exact absurd (.interpreted (interpreted_of_interpreted? hread)) (h text)
      | none =>
        obtain ⟨front, text, bad, heq, hfront, hbad⟩ := exists_stuck hread
        rw [heq]
        exact .broken hfront hbad
    · by_cases hback : pair.1 = 96
      · rw [hback] at h ⊢
        by_cases hmem : 96 ∈ pair.2
        · exact .backquote hmem
        · exact absurd (.raw hmem) (h _)
      · exact .foreign hdouble hback

end Literal

end ArgLine
