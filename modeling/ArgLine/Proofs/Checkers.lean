import Mathlib.Data.List.Nodup
import ArgLine.Checkers

/-!
# ArgLine.Proofs.Checkers

The checkers of a lint run, for any two lists that they are picked from.

A run must not use two checkers of one name.  Its list has four parts, two of them fixed, and
`parted` says that a name can be in one of them only: by its first letters it is
fixed, a bug checker, or the style checker.  So only a part can repeat a name, and
`inUse_exact` says which part does and when.
-/

namespace ArgLine

namespace Checkers

def fixed : List Bytes := standard ++ closing

theorem nodup_fixed : fixed.Nodup := by decide

/-- No fixed name is that of a bug checker, or of the style checker. -/
theorem parted : ∀ name ∈ fixed, ¬ bugMark <+: name ∧ name ≠ styleName := by decide

/-- The style checker is not taken for a bug checker, so it is not used twice. -/
theorem not_bugMark_prefix_styleName : ¬ bugMark <+: styleName := by decide

/-- The parts of the list, as they are picked. -/
theorem inUse_eq (bugs styles : List Bytes) :
    inUse bugs styles = standard ++ bugs.filter (bugMark <+: ·) ++
      List.replicate (styles.count styleName) styleName ++ closing := by
  have hbugs : bugs.filter (bugMark.isPrefixOf ·) = bugs.filter (bugMark <+: ·) := by
    apply List.filter_congr
    intro name _
    rw [Bool.eq_iff_iff, List.isPrefixOf_iff_prefix, decide_eq_true_iff]
  rw [inUse, hbugs, ← List.filter_eq]

/-- A checker is in use if it is fixed, is a bug checker, or is the one style checker that is
wanted. -/
theorem mem_inUse {bugs styles : List Bytes} {name : Bytes} :
    name ∈ inUse bugs styles ↔
      name ∈ fixed ∨ name ∈ bugs ∧ bugMark <+: name ∨ name = styleName ∧ styleName ∈ styles := by
  simp only [inUse_eq, fixed, List.mem_append, List.mem_filter, decide_eq_true_iff,
    List.mem_replicate, ne_eq, List.count_eq_zero, not_not]
  tauto

/-- What is picked from the two lists: no name of one part is in another. -/
theorem nodup_picked_iff {bugs styles : List Bytes} :
    (bugs.filter (bugMark <+: ·) ++ List.replicate (styles.count styleName) styleName).Nodup ↔
      (bugs.filter (bugMark <+: ·)).Nodup ∧ styles.count styleName ≤ 1 := by
  rw [List.nodup_append, List.nodup_replicate]
  constructor
  · rintro ⟨hbugs, hstyle, -⟩
    exact ⟨hbugs, hstyle⟩
  · rintro ⟨hbugs, hstyle⟩
    refine ⟨hbugs, hstyle, fun a ha b hb => ?_⟩
    obtain rfl := List.eq_of_mem_replicate hb
    have hmark : bugMark <+: a := by simpa using (List.mem_filter.1 ha).2
    exact fun h => not_bugMark_prefix_styleName (h ▸ hmark)

/-- Names repeat only in what is picked, since what is picked is not fixed. -/
theorem nodup_inUse_iff {bugs styles : List Bytes} :
    (inUse bugs styles).Nodup ↔
      (bugs.filter (bugMark <+: ·)).Nodup ∧ styles.count styleName ≤ 1 := by
  have hperm : (inUse bugs styles).Perm (fixed ++ (bugs.filter (bugMark <+: ·) ++
      List.replicate (styles.count styleName) styleName)) := by
    rw [inUse_eq, fixed, List.append_assoc standard, List.append_assoc standard,
      List.append_assoc standard]
    exact List.perm_append_comm.append_left standard
  rw [hperm.nodup_iff, List.nodup_append, ← nodup_picked_iff]
  constructor
  · exact fun h => h.2.1
  · refine fun h => ⟨nodup_fixed, h, fun a ha b hb hab => ?_⟩
    obtain ⟨hmark, hstyle⟩ := parted a ha
    rcases List.mem_append.1 hb with hb | hb
    · exact hmark (hab ▸ by simpa using (List.mem_filter.1 hb).2)
    · exact hstyle (hab.trans (List.eq_of_mem_replicate hb))

/-- **The list of checkers loses, adds and repeats nothing.**  It is the standard passes, the bug
checkers of the first list as they are there, the style checker as often as it is in the second, and
the two that come last.  So a name is used exactly if it is fixed or picked from the list it
belongs to.  No name is used twice exactly if the bug checkers are distinct and the style checker is
there once at most, whatever else the lists hold. -/
theorem inUse_exact (bugs styles : List Bytes) :
    standard.length = 27 ∧
    inUse bugs styles = standard ++ bugs.filter (ascii "SA" <+: ·) ++
      List.replicate (styles.count (ascii "ST1000")) (ascii "ST1000") ++
      [ascii "nilerr", ascii "noosexit"] ∧
    (∀ name, name ∈ inUse bugs styles ↔ name ∈ standard ++ [ascii "nilerr", ascii "noosexit"] ∨
      name ∈ bugs ∧ ascii "SA" <+: name ∨ name = ascii "ST1000" ∧ ascii "ST1000" ∈ styles) ∧
    ((inUse bugs styles).Nodup ↔
      (bugs.filter (ascii "SA" <+: ·)).Nodup ∧ styles.count (ascii "ST1000") ≤ 1) :=
  ⟨rfl, inUse_eq bugs styles, fun _ => mem_inUse, nodup_inUse_iff⟩

end Checkers

end ArgLine
