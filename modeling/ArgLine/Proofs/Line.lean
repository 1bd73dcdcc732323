import ArgLine.Line
import ArgLine.Proofs.Text.Decimal

/-!
# ArgLine.Proofs.Line

The line can be read back, although the name in it may be any bytes at all and may itself look like
a line.

* `Bytes.cutLastPart` divides a text at the last place where a separator stands
  (`cutLastPart_eq_some_iff`).
* `Line.decode?` reads a line, and accepts exactly the texts of that form
  (`decode?_eq_some_iff`).
* `line_decodable`: a line tells the name and the number of arguments, and nothing else.
-/

namespace ArgLine

namespace Bytes

/-! ## dividing at the last separator -/

/-- The text is `before`, the separator and `after`, and the separator stands nowhere further on. -/
structure LastCut (sep text before after : Bytes) : Prop where
  eq : text = before ++ sep ++ after
  last : ∀ x y, text = x ++ sep ++ y → x.length ≤ before.length

/-- What stands before and after the last `sep`, if there is one. -/
def cutLastPart (sep : Bytes) : Bytes → Option (Bytes × Bytes)
  | [] => none
  | b :: rest =>
    ((cutLastPart sep rest).map fun cut => (b :: cut.1, cut.2)).or
      (if sep.isPrefixOf (b :: rest) then some ([], (b :: rest).drop sep.length) else none)

/-- There is only one last place. -/
theorem LastCut.unique {sep text before after before' after' : Bytes}
    (h : LastCut sep text before after) (h' : LastCut sep text before' after') :
    before = before' ∧ after = after' := by
  have hlen : before.length = before'.length :=
    Nat.le_antisymm (h'.last before after h.eq) (h.last before' after' h'.eq)
  have heq := h.eq.symm.trans h'.eq
  rw [List.append_assoc, List.append_assoc] at heq
  obtain ⟨hbefore, hrest⟩ := List.append_inj heq hlen
  exact ⟨hbefore, List.append_cancel_left hrest⟩

/-- The last place in a text is the last in the text with one more byte in front. -/
theorem LastCut.cons {sep text before after : Bytes} (h : LastCut sep text before after)
    (b : UInt8) : LastCut sep (b :: text) (b :: before) after := by
  refine ⟨by rw [h.eq]; rfl, fun x y hxy => ?_⟩
  cases x with
  | nil => exact Nat.zero_le _
  | cons c x =>
    have htext : text = x ++ sep ++ y := (List.cons.inj hxy).2
    exact Nat.succ_le_succ (h.last x y htext)

section CutLastPart

variable {sep : Bytes} (hsep : sep ≠ [])

include hsep

/-- Where no cut is found, the separator stands nowhere. -/
theorem cutLastPart_eq_none {text : Bytes} (h : cutLastPart sep text = none) :
    ∀ x y, text ≠ x ++ sep ++ y := by
  induction text with
  | nil =>
    intro x y hxy
    have hnil : sep = [] := by simp_all
    exact hsep hnil
  | cons b rest ih =>
    rw [cutLastPart, Option.or_eq_none_iff, Option.map_eq_none_iff] at h
    obtain ⟨hrest, hhere⟩ := h
    intro x y hxy
    cases x with
    | nil =>
      have hprefix : sep.isPrefixOf (b :: rest) = true :=
        List.isPrefixOf_iff_prefix.2 ⟨y, hxy.symm⟩
      rw [if_pos hprefix] at hhere
      contradiction
    | cons c x => exact ih hrest x y (List.cons.inj hxy).2

/-- The cut that is found is the last one. -/
theorem lastCut_of_cutLastPart {text before after : Bytes}
    (h : cutLastPart sep text = some (before, after)) : LastCut sep text before after := by
  induction text generalizing before with
  | nil => simp [cutLastPart] at h
  | cons b rest ih =>
    rw [cutLastPart] at h
    cases hrest : cutLastPart sep rest with
    | some cut =>
      rw [hrest, Option.map_some, Option.some_or] at h
      obtain ⟨rfl, rfl⟩ := Prod.mk.inj (Option.some.inj h)
      exact (ih hrest).cons b
    | none =>
      rw [hrest, Option.map_none, Option.none_or] at h
      split at h
      · next hprefix =>
        obtain ⟨rfl, rfl⟩ := Prod.mk.inj (Option.some.inj h)
        obtain ⟨back, hback⟩ := List.isPrefixOf_iff_prefix.1 hprefix
        refine ⟨by rw [← hback]; simp, fun x y hxy => ?_⟩
        -- a later place would be one in the rest
        cases x with
        | nil => exact Nat.zero_le _
        | cons c x => exact absurd (List.cons.inj hxy).2 (cutLastPart_eq_none hsep hrest x y)
      · contradiction

/-- **The cut of a text** is found exactly where its last separator stands. -/
theorem cutLastPart_eq_some_iff {text before after : Bytes} :
    cutLastPart sep text = some (before, after) ↔ LastCut sep text before after := by
  refine ⟨lastCut_of_cutLastPart hsep, fun h => ?_⟩
  cases hcut : cutLastPart sep text with
  | none => exact absurd h.eq (cutLastPart_eq_none hsep hcut before after)
  | some cut =>
    obtain ⟨hbefore, hafter⟩ := (lastCut_of_cutLastPart hsep hcut).unique h
    rw [← hbefore, ← hafter]

end CutLastPart

/-- A separator is the last one if its last byte does not come again. -/
theorem lastCut_of_not_mem {b : UInt8} {after : Bytes} (h : b ∉ after) (start before : Bytes) :
    LastCut (start ++ [b]) (before ++ (start ++ [b]) ++ after) before after := by
  refine ⟨rfl, fun x y hxy => ?_⟩
  rcases List.append_eq_append_iff.1 hxy with ⟨mid, hfront, hafter⟩ | ⟨mid, hfront, -⟩
  · rcases List.eq_nil_or_concat mid with rfl | ⟨front, c, rfl⟩
    · rw [List.append_nil] at hfront
      exact Nat.le_of_eq (congrArg List.length (List.append_cancel_right hfront))
    · -- the other place ends further on, in a byte `c` that is the separator's last
      rw [List.concat_eq_append, ← List.append_assoc, ← List.append_assoc] at hfront
      obtain ⟨-, hlast⟩ := List.append_inj' hfront rfl
      obtain rfl : b = c := List.singleton_inj.1 hlast
      exact absurd (by simp [hafter]) h
  · have hlen := congrArg List.length hfront
    simp only [List.length_append] at hlen
    omega

end Bytes

namespace Line

/-! ## reading a line -/

theorem separator_ne_nil : ascii ": " ≠ [] := by decide

/-- The name and the number that a line tells. -/
def decode? (text : Bytes) : Option (Bytes × Nat) :=
  (Bytes.cutLastPart (ascii ": ") text).bind fun cut =>
    if cut.2.getLast? = some Bytes.newline ∧ Decimal.Canonical cut.2.dropLast then
      (Decimal.value? cut.2.dropLast).map (cut.1, ·)
    else none

/-- The separator before the number is the last one: a number and a newline hold no blank. -/
theorem lastCut_line (name : Bytes) (n : Nat) :
    Bytes.LastCut (ascii ": ") (name ++ ascii ": " ++ (Decimal.ofNat n ++ [Bytes.newline])) name
      (Decimal.ofNat n ++ [Bytes.newline]) := by
  have hblank : (32 : UInt8) ∉ Decimal.ofNat n ++ [Bytes.newline] := by
    rw [List.mem_append, not_or]
    refine ⟨fun hmem => ?_, by decide⟩
    have hdigit : Decimal.IsDigit 32 := Decimal.isDigit_of_mem_ofNat hmem
    exact absurd hdigit.1 (by decide)
  exact Bytes.lastCut_of_not_mem hblank [58] name

/-- Reading accepts exactly a name, the separator, a decimal number and a newline. -/
theorem decode?_eq_some_iff {text name : Bytes} {n : Nat} :
    decode? text = some (name, n) ↔
      text = name ++ ascii ": " ++ (Decimal.ofNat n ++ [Bytes.newline]) := by
  unfold decode?
  constructor
  · intro h
    obtain ⟨cut, hcut, h⟩ := Option.bind_eq_some_iff.1 h
    split at h
    · next hend =>
      obtain ⟨m, hvalue, hpair⟩ := Option.map_eq_some_iff.1 h
      obtain ⟨rfl, rfl⟩ := Prod.mk.inj hpair
      obtain ⟨digits, htail⟩ := List.getLast?_eq_some_iff.1 hend.1
      rw [htail, List.dropLast_concat] at hvalue hend
      rw [(Bytes.lastCut_of_cutLastPart separator_ne_nil hcut).eq, htail,
        Decimal.eq_ofNat_iff.2 ⟨hend.2, hvalue⟩]
    · contradiction
  · rintro rfl
    rw [(Bytes.cutLastPart_eq_some_iff separator_ne_nil).2 (lastCut_line name n), Option.bind_some]
    simp [Decimal.canonical_ofNat, Decimal.value?_ofNat]

/-! ## what a line tells -/

/-- A line is a name, a separator, and a number with a newline. -/
theorem line_eq (args : List Bytes) :
    line args =
      nameOf args ++ ascii ": " ++ (Decimal.ofNat args.length ++ [Bytes.newline]) := by
  rw [line, List.append_assoc]

/-- A line decodes to the name and the number that it was made of. -/
theorem decode?_line (args : List Bytes) :
    decode? (line args) = some (nameOf args, args.length) :=
  decode?_eq_some_iff.2 (line_eq args)

/-- As many arguments under the same name have the same first one, if there is one. -/
theorem head?_eq_of_nameOf_eq {a b : List Bytes} (hname : nameOf a = nameOf b)
    (hlen : a.length = b.length) : a.head? = b.head? := by
  cases a with
  | nil =>
    obtain rfl : b = [] := List.length_eq_zero_iff.1 hlen.symm
    rfl
  | cons x xs =>
    cases b with
    | nil => contradiction
    | cons y ys => exact congrArg some hname

/-- Two argument lists have the same line exactly if they have the same name and length. -/
theorem line_eq_line_iff {a b : List Bytes} :
    line a = line b ↔ a.length = b.length ∧ a.head? = b.head? := by
  constructor
  · intro h
    have hpair : (nameOf a, a.length) = (nameOf b, b.length) := by
      rw [← Option.some_inj, ← decode?_line, ← decode?_line, h]
    obtain ⟨hname, hlen⟩ := Prod.mk.inj hpair
    exact ⟨hlen, head?_eq_of_nameOf_eq hname hlen⟩
  · rintro ⟨hlen, hhead⟩
    rw [line, line, nameOf, nameOf, hlen, hhead]

/-- **A line tells its name and its count**, whatever bytes the name is made of.  The name is what
precedes the last separator, and the count is what stands from there to the final newline, in
decimal and without a leading zero. -/
theorem line_decodable :
    (∀ args, decode? (line args) = some (args.head?.getD [], args.length)) ∧
    (∀ args, ∃ digits, Decimal.Canonical digits ∧ Decimal.value? digits = some args.length ∧
      Bytes.LastCut (ascii ": ") (line args) (args.head?.getD []) (digits ++ [Bytes.newline])) ∧
    ∀ a b, line a = line b ↔ a.length = b.length ∧ a.head? = b.head? := by
  refine ⟨decode?_line, fun args => ?_, fun a b => line_eq_line_iff⟩
  refine ⟨Decimal.ofNat args.length, Decimal.canonical_ofNat _, Decimal.value?_ofNat _, ?_⟩
  rw [line_eq]
  exact lastCut_line (nameOf args) args.length

/-- A name that is a line itself. -/
example : decode? (ascii "x: 1\n: 20\n") = some (ascii "x: 1\n", 20) := by decide +kernel

end Line

end ArgLine
