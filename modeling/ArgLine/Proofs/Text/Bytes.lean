import ArgLine.Text.Bytes

/-!
# ArgLine.Proofs.Text.Bytes

What searching, dividing and overwriting a text amount to, said without the
functions that do it.

* `hasInfix_iff`: a part is found exactly if the text is something, the part, and
  something.
* `mem_split_iff`: the parts of a divided text are its stretches without a
  separator that reach from one end or separator to the next.
* `getElem?_overwrite`: overwriting changes the bytes in the place of the data and
  no others.
-/

namespace ArgLine

namespace Bytes

/-! ## searching -/

/-- The search finds a part exactly if it stands in the text. -/
theorem hasInfix_iff {part text : Bytes} : hasInfix part text = true ↔ part <:+: text := by
  induction text with
  | nil => simp [hasInfix]
  | cons b rest ih =>
    rw [hasInfix, Bool.or_eq_true, List.isPrefixOf_iff_prefix, ih, List.infix_cons_iff]

/-! ## dividing -/

/-- `part` stands in the text between two separators, or a separator and an end, or both ends. -/
def Between (sep : UInt8) (part text : Bytes) : Prop :=
  sep ∉ part ∧ ∃ before after, text = before ++ part ++ after ∧
    (before = [] ∨ before.getLast? = some sep) ∧ (after = [] ∨ after.head? = some sep)

theorem split_ne_nil (sep : UInt8) (text : Bytes) : split sep text ≠ [] := by
  cases text with
  | nil => simp [split]
  | cons b rest =>
    rw [split]
    split
    · simp
    · split <;> simp

/-- A text without a separator is its only part. -/
theorem split_of_not_mem {sep : UInt8} {text : Bytes} (h : sep ∉ text) :
    split sep text = [text] := by
  induction text with
  | nil => rfl
  | cons b rest ih =>
    rw [List.mem_cons, not_or] at h
    rw [split, if_neg (Ne.symm h.1), ih h.2]

/-- The parts of two texts with a separator between them are those of the one and of the other. -/
theorem split_append (sep : UInt8) (front back : Bytes) :
    split sep (front ++ sep :: back) = split sep front ++ split sep back := by
  induction front with
  | nil => simp [split]
  | cons b rest ih =>
    rw [List.cons_append, split, split, ih]
    by_cases hb : b = sep
    · rw [if_pos hb, if_pos hb, List.cons_append]
    · rw [if_neg hb, if_neg hb]
      cases hs : split sep rest with
      | nil => exact absurd hs (split_ne_nil sep rest)
      | cons part parts => rfl

/-- The parts of a text that follows a separator, or nothing, are parts of the whole. -/
theorem split_suffix {sep : UInt8} {before : Bytes}
    (h : before = [] ∨ before.getLast? = some sep) (text : Bytes) :
    split sep text <:+ split sep (before ++ text) := by
  rcases h with rfl | h
  · exact List.suffix_refl _
  · obtain ⟨front, rfl⟩ := List.getLast?_eq_some_iff.1 h
    rw [List.append_assoc, List.singleton_append, split_append]
    exact List.suffix_append _ _

/-- Every stretch between separators is a part. -/
theorem mem_split_of_between {sep : UInt8} {part text : Bytes} (h : Between sep part text) :
    part ∈ split sep text := by
  obtain ⟨hpart, before, after, rfl, hbefore, hafter⟩ := h
  rw [List.append_assoc]
  refine (split_suffix hbefore _).subset ?_
  rcases hafter with rfl | hafter
  · rw [List.append_nil, split_of_not_mem hpart]
    exact List.mem_singleton_self part
  · obtain ⟨back, rfl⟩ := List.head?_eq_some_iff.1 hafter
    rw [split_append, split_of_not_mem hpart]
    exact List.mem_append_left _ (List.mem_singleton_self part)

/-- A part of what follows a separator is a part of the whole. -/
theorem Between.append {sep : UInt8} {part back : Bytes} (h : Between sep part back)
    (front : Bytes) : Between sep part (front ++ sep :: back) := by
  obtain ⟨hpart, before, after, rfl, hbefore, hafter⟩ := h
  refine ⟨hpart, front ++ sep :: before, after, by simp, Or.inr ?_, hafter⟩
  rcases hbefore with rfl | hbefore
  · simp
  · simp [List.getLast?_append, List.getLast?_cons, hbefore]

/-- Every part is a stretch between separators. -/
theorem between_of_mem_split {sep : UInt8} {part : Bytes} (text : Bytes)
    (h : part ∈ split sep text) : Between sep part text := by
  by_cases hsep : sep ∈ text
  · -- cut before the first separator: what precedes it is a part, the others come after it
    obtain ⟨front, back, rfl, hfront⟩ := List.eq_append_cons_of_mem hsep
    rw [split_append, split_of_not_mem hfront, List.singleton_append, List.mem_cons] at h
    rcases h with rfl | h
    · exact ⟨hfront, [], sep :: back, rfl, Or.inl rfl, Or.inr rfl⟩
    · exact (between_of_mem_split back h).append front
  · rw [split_of_not_mem hsep, List.mem_singleton] at h
    subst h
    exact ⟨hsep, [], [], by simp, Or.inl rfl, Or.inl rfl⟩
termination_by text.length
decreasing_by simp_all; omega

/-- **The parts of a divided text** are exactly the stretches between its separators. -/
theorem mem_split_iff {sep : UInt8} {part text : Bytes} :
    part ∈ split sep text ↔ Between sep part text :=
  ⟨between_of_mem_split text, mem_split_of_between⟩

theorem cut_of_not_mem {sep : UInt8} {text : Bytes} (h : sep ∉ text) :
    cut sep text = (text, none) := by
  induction text with
  | nil => rfl
  | cons b rest ih =>
    rw [List.mem_cons, not_or] at h
    rw [cut, if_neg (Ne.symm h.1), ih h.2]

theorem cut_append {sep : UInt8} {front : Bytes} (h : sep ∉ front) (back : Bytes) :
    cut sep (front ++ sep :: back) = (front, some back) := by
  induction front with
  | nil => simp [cut]
  | cons b rest ih =>
    rw [List.mem_cons, not_or] at h
    rw [List.cons_append, cut, if_neg (Ne.symm h.1), ih h.2]

/-! ## overwriting -/

/-- After overwriting, the bytes in the place of the data are the data's and all others are as
before. -/
theorem getElem?_overwrite {text data : Bytes} {place j : Nat} (h : j < text.length) :
    (overwrite text place data)[j]? =
      if place ≤ j ∧ j < place + data.length then data[j - place]? else text[j]? := by
  unfold overwrite
  by_cases hplace : j < place
  · have hfront : j < (text.take place ++ data.take (text.length - place)).length := by
      rw [List.length_append, List.length_take]
      omega
    rw [List.getElem?_append_left hfront, List.getElem?_append_left (by simp; omega),
      List.getElem?_take, if_pos hplace, if_neg (by omega)]
  · have hlen : (text.take place).length = place := by rw [List.length_take]; omega
    rw [List.append_assoc, List.getElem?_append_right (by omega), hlen]
    by_cases hdata : j < place + data.length
    · rw [if_pos ⟨by omega, hdata⟩, List.getElem?_append_left (by simp; omega),
        List.getElem?_take, if_pos (by omega)]
    · rw [if_neg (by omega), List.getElem?_append_right (by simp; omega), List.getElem?_drop]
      congr 1
      simp
      omega

end Bytes

end ArgLine
