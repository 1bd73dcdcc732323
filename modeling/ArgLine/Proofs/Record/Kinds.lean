import ArgLine.Proofs.Record.Equality
import ArgLine.Record.Script

/-!
# ArgLine.Proofs.Record.Kinds

An integral record behaves as the ordinary record of the same integer.

* `asPlain` takes the kind away: from a record, from all records that are named, and from a step
  that makes one.
* `run_asPlain`: a step without kinds does to records without kinds what the step does, and answers
  the same.  A step that fails leaves both sides as they were.  Only comparing is another matter,
  since records of different kinds differ (`agree_run`).
* `integral_as_plain`: so two runs stay in step, however long they are.
-/

namespace ArgLine

namespace Bindings

/-- The same names with other values. -/
def map (f : α → β) (b : Bindings α) : Bindings β := ⟨b.entries.map fun e => (e.1, f e.2)⟩

theorem get?_map (f : α → β) (b : Bindings α) (name : Bytes) :
    (b.map f).get? name = (b.get? name).map f := by
  unfold map get?
  induction b.entries with
  | nil => rfl
  | cons e rest ih =>
    rw [List.map_cons, List.lookup_cons, List.lookup_cons, ih]
    cases name == e.1 <;> rfl

end Bindings

/-! ## taking the kind away -/

/-- An ordinary record in place of either kind. -/
def AnyRecord.asPlain (r : AnyRecord) : AnyRecord := .plain r.toRecord

@[simp] theorem AnyRecord.toRecord_asPlain (r : AnyRecord) : r.asPlain.toRecord = r.toRecord := rfl

namespace Record

/-- Ordinary records in place of all. -/
def Slots.asPlain (s : Slots) : Slots := s.map AnyRecord.asPlain

namespace Step

/-- The step with an ordinary record in place of an integral one. -/
def asPlain : Step → Step
  | new slot type _ flag value label => new slot type false flag value label
  | step => step

/-- The step makes an integral record of an integer type only. -/
def WellTyped : Step → Prop
  | new _ type isIntegral _ _ _ => isIntegral = true → isInteger type = true
  | _ => True

def Compares (step : Step) : Prop := ∃ slot other, step = equal slot other

end Step

/-! ## making and changing records -/

/-- A value that is read for a type is of that type. -/
theorem type_of_read {d : Datum} {type : PayloadType} {p : Payload} (h : d.read type = .ok p) :
    p.type = type := by
  have hread : d.read? type = some p := by
    unfold Datum.read at h
    split at h
    · next hread => exact hread.trans (congrArg some (Except.ok.inj h))
    · contradiction
  cases type with
  | integer t =>
    simp only [Datum.read?] at hread
    split at hread
    · split at hread
      · exact Option.some.inj hread ▸ rfl
      · contradiction
    · contradiction
  | text | flag | texts =>
    cases d <;> simp only [Datum.read?, reduceCtorEq, Option.some.injEq] at hread <;>
      exact hread ▸ rfl
  | float =>
    cases d <;> simp only [Datum.read?, reduceCtorEq] at hread
    split at hread
    · obtain ⟨n, -, rfl⟩ := Option.map_eq_some_iff.1 hread
      rfl
    · contradiction

/-- A value that is read for an integer type is an integer. -/
theorem exists_integer_of_read {d : Datum} {t : IntType} {p : Payload}
    (h : d.read (.integer t) = .ok p) : ∃ n, p = .integer n := by
  have htype := type_of_read h
  cases p with
  | integer n => exact ⟨n, rfl⟩
  | text | flag | float | texts => contradiction

/-- A record that is made without a kind is the record that is made, without its kind. -/
theorem build_asPlain {type : PayloadType} {isIntegral : Bool}
    (h : isIntegral = true → isInteger type = true) (flag : Int64) (value : Datum) (label : Bytes) :
    build type false flag value label =
      (build type isIntegral flag value label).map AnyRecord.asPlain := by
  cases isIntegral with
  | false =>
    simp only [build, Bool.false_and, Bool.false_eq_true, if_false]
    cases value.read type <;> rfl
  | true =>
    have hinteger := h rfl
    cases type with
    | integer t =>
      simp only [build, hinteger, Bool.not_true, Bool.and_false, Bool.false_eq_true, if_false]
      cases hread : value.read (.integer t) with
      | error why => rfl
      | ok p =>
        obtain ⟨n, rfl⟩ := exists_integer_of_read hread
        rfl
    | text | flag | float | texts => contradiction

/-- A record that is made has the flag it is given. -/
theorem flag_of_build {type : PayloadType} {isIntegral : Bool} {flag : Int64} {value : Datum}
    {label : Bytes} {r : AnyRecord} (h : build type isIntegral flag value label = .ok r) :
    r.toRecord.flag = flag := by
  unfold build at h
  split at h
  · contradiction
  · split at h
    · unfold make at h
      split at h
      · exact Except.ok.inj h ▸ rfl
      · exact Except.ok.inj h ▸ rfl
      · contradiction
    · contradiction

/-- Changing a record without its kind is changing the record. -/
theorem replace_asPlain (r : AnyRecord) (update : Update) :
    replace r.asPlain update = (replace r update).map AnyRecord.asPlain := by
  cases update with
  | flag n => cases r <;> rfl
  | label text => cases r <;> rfl
  | value d =>
    simp only [replace, AnyRecord.toRecord_asPlain]
    cases hread : d.read r.toRecord.value.type with
    | error why => cases r <;> rfl
    | ok p =>
      cases r with
      | plain r => rfl
      | integral r =>
        obtain ⟨n, rfl⟩ := exists_integer_of_read hread
        rfl

/-! ## one step -/

/-- What a step leaves and answers, with the kinds taken away from what it leaves. -/
def withoutKinds (result : Slots × Answer) : Slots × Answer := (result.1.asPlain, result.2)

/-- What is put in a slot is put there without its kind. -/
theorem assign_asPlain (s : Slots) (slot : Bytes) (made : Except Rejection AnyRecord) :
    assign s.asPlain slot (made.map AnyRecord.asPlain) = withoutKinds (assign s slot made) := by
  cases made <;> rfl

/-- An operation on a slot may be done after the kinds are gone, if it can on the record there. -/
theorem withSlot_asPlain (s : Slots) (slot : Bytes) {f f' : AnyRecord → Slots × Answer}
    (h : ∀ r, s.get? slot = some r → f' r.asPlain = withoutKinds (f r)) :
    withSlot s.asPlain slot f' = withoutKinds (withSlot s slot f) := by
  unfold withSlot
  rw [Slots.asPlain, Bindings.get?_map]
  cases hr : s.get? slot with
  | none => rfl
  | some r => exact h r hr

/-- **A step that compares nothing does the same without kinds.** -/
theorem run_asPlain (s : Slots) {step : Step} (htyped : step.WellTyped)
    (hcompares : ¬ step.Compares) :
    step.asPlain.run s.asPlain = withoutKinds (step.run s) := by
  cases step with
  | new slot type isIntegral flag value label =>
    simp only [Step.asPlain, Step.run]
    rw [build_asPlain htyped, assign_asPlain]
  | copy slot source => exact withSlot_asPlain s source fun r _ => rfl
  | set slot update =>
    refine withSlot_asPlain s slot fun r _ => ?_
    rw [replace_asPlain, assign_asPlain]
  | get slot => exact withSlot_asPlain s slot fun r _ => rfl
  | truthy slot => exact withSlot_asPlain s slot fun r _ => rfl
  | equal slot other => exact absurd ⟨slot, other, rfl⟩ hcompares

/-- The two slots hold records of different kinds. -/
def Slots.Differ (s : Slots) (slot other : Bytes) : Prop :=
  ∃ r r', s.get? slot = some r ∧ s.get? other = some r' ∧ r.isIntegral ≠ r'.isIntegral

/-- Records of one kind compare the same without it. -/
theorem compare_asPlain {r r' : AnyRecord} (h : r.isIntegral = r'.isIntegral) :
    r.asPlain.compare r'.asPlain = r.compare r' := by
  have hplain : r.asPlain.isIntegral = r'.asPlain.isIntegral := rfl
  rw [AnyRecord.compare_of_kind_eq h, AnyRecord.compare_of_kind_eq hplain,
    AnyRecord.toRecord_asPlain, AnyRecord.toRecord_asPlain]

/-- Records of one kind compare the same without it. -/
theorem run_equal_asPlain {s : Slots} {slot other : Bytes} (h : ¬ s.Differ slot other) :
    (Step.equal slot other).run s.asPlain = withoutKinds ((Step.equal slot other).run s) := by
  refine withSlot_asPlain s slot fun r hr => withSlot_asPlain s other fun r' hr' => ?_
  have hkind : r.isIntegral = r'.isIntegral := not_not.1 fun hne => h ⟨r, r', hr, hr', hne⟩
  rw [compare_asPlain hkind]
  cases r.compare r' <;> rfl

/-- Records of different kinds are found to differ. -/
theorem run_equal_of_differ {s : Slots} {slot other : Bytes} (h : s.Differ slot other) :
    (Step.equal slot other).run s = (s, .equal false) := by
  obtain ⟨r, r', hr, hr', hne⟩ := h
  simp only [Step.run, withSlot, hr, hr', AnyRecord.compare_of_kind_ne hne]

theorem withSlot_fst {s : Slots} {slot : Bytes} {f : AnyRecord → Slots × Answer}
    (h : ∀ r, (f r).1 = s) : (withSlot s slot f).1 = s := by
  unfold withSlot
  cases s.get? slot with
  | none => rfl
  | some r => exact h r

/-- Comparing changes no record. -/
theorem run_equal_fst (s : Slots) (slot other : Bytes) :
    ((Step.equal slot other).run s).1 = s := by
  refine withSlot_fst fun r => withSlot_fst fun r' => ?_
  cases r.compare r' <;> rfl

/-- A step leaves the same records without kinds, whether it compares or not. -/
theorem run_asPlain_fst (s : Slots) {step : Step} (htyped : step.WellTyped) :
    (step.asPlain.run s.asPlain).1 = (step.run s).1.asPlain := by
  by_cases hcompares : step.Compares
  · obtain ⟨slot, other, rfl⟩ := hcompares
    change ((Step.equal slot other).run s.asPlain).1 = _
    rw [run_equal_fst, run_equal_fst]
  · exact congrArg Prod.fst (run_asPlain s htyped hcompares)

/-- What the answers `x` of a step on the records `now`, and `y` of the step without kinds, have in
common. -/
structure Agree (now : Slots) (step : Step) (x y : Answer) : Prop where
  /-- Making, copying, changing and reading a record answer the same. -/
  same : ¬ step.Compares → x = y
  /-- A record that is answered counts as true by its flag alone. -/
  record : ∀ r, x = .record r → (r.truthy = true ↔ r.flag ≠ 0)
  /-- One that is made counts by the flag it is given, whatever its type, value and label. -/
  made : ∀ slot type isIntegral flag value label r,
    step = .new slot type isIntegral flag value label → x = .record r →
      (r.truthy = true ↔ flag ≠ 0)
  /-- One that is asked for its truth answers by its flag. -/
  truthy : ∀ slot r, step = .truthy slot → now.get? slot = some r →
    x = .truthy (decide (r.toRecord.flag ≠ 0))
  /-- Records of one kind compare the same. -/
  equal : ∀ slot other, step = .equal slot other → ¬ now.Differ slot other → x = y
  /-- Records of different kinds differ. -/
  differ : ∀ slot other, step = .equal slot other → now.Differ slot other → x = .equal false

theorem truthy_iff (r : Record α) : r.truthy = true ↔ r.flag ≠ 0 := by
  simp [Record.truthy]

/-- One step and the step without kinds give answers that agree. -/
theorem agree_run (s : Slots) {step : Step} (htyped : step.WellTyped) :
    Agree s step (step.run s).2 (step.asPlain.run s.asPlain).2 where
  same hcompares := by rw [run_asPlain s htyped hcompares, withoutKinds]
  record r _ := truthy_iff r
  made slot type isIntegral flag value label r hstep hanswer := by
    subst hstep
    simp only [Step.run] at hanswer
    cases hbuild : build type isIntegral flag value label with
    | error why => simp [hbuild, assign] at hanswer
    | ok made =>
      simp only [hbuild, assign, Answer.record.injEq] at hanswer
      rw [truthy_iff, ← hanswer, flag_of_build hbuild]
  truthy slot r hstep hr := by
    subst hstep
    have htruthy : r.toRecord.truthy = decide (r.toRecord.flag ≠ 0) := by
      rw [Bool.eq_iff_iff, truthy_iff, decide_eq_true_iff]
    simp only [Step.run, withSlot, hr, htruthy]
  equal slot other hstep hkinds := by
    subst hstep
    exact (congrArg Prod.snd (run_equal_asPlain hkinds)).symm
  differ slot other hstep hkinds := by
    subst hstep
    rw [run_equal_of_differ hkinds]

/-! ## whole runs -/

/-- **Integral records behave as ordinary ones.**  A run, and the run with an ordinary record made
in place of every integral one, leave the same records but for their kinds, and agree at every
step: only comparing tells the kinds apart. -/
theorem integral_as_plain (s : Slots) (steps : List Step)
    (htyped : ∀ step ∈ steps, step.WellTyped) :
    (runSteps s.asPlain (steps.map Step.asPlain)).1 = (runSteps s steps).1.asPlain ∧
    ∀ i step, steps[i]? = some step → ∃ x y,
      (runSteps s steps).2[i]? = some x ∧
      (runSteps s.asPlain (steps.map Step.asPlain)).2[i]? = some y ∧
      Agree (runSteps s (steps.take i)).1 step x y := by
  induction steps generalizing s with
  | nil => exact ⟨rfl, fun i step h => by simp at h⟩
  | cons first rest ih =>
    have hfirst : first.WellTyped := htyped first List.mem_cons_self
    have hnext := run_asPlain_fst s hfirst
    have hrest : ∀ step ∈ rest, step.WellTyped :=
      fun step h => htyped step (List.mem_cons_of_mem first h)
    obtain ⟨hlast, hagree⟩ := ih (first.run s).1 hrest
    simp only [List.map_cons, runSteps, hnext]
    refine ⟨hlast, fun i step hstep => ?_⟩
    cases i with
    | zero =>
      obtain rfl := Option.some.inj hstep
      exact ⟨_, _, rfl, rfl, agree_run s hfirst⟩
    | succ i =>
      -- what is before a later step of the run is before it in the rest, run from where `first` led
      exact hagree i step hstep

/-- Records of both kinds: one that cannot be made, one changed beyond its type, a copy, and
comparisons within a kind and across. -/
def bothKinds : List Step :=
  [.new [97] (.integer .uint8) true 7 (.number 32) [],
    .new [98] (.integer .uint8) false 7 (.number 32) [],
    .new [98] (.integer .int8) true 0 (.number 128) [], .set [97] (.value (.number 256)),
    .copy [99] [97], .truthy [99], .equal [97] [99], .equal [97] [98], .get [100]]

/-- A run with records of both kinds, where the comparison of two of them is the one answer that the
kinds change. -/
theorem integral_as_plain_bothKinds :
    (∀ step ∈ bothKinds, step.WellTyped) ∧
    (runSteps .empty (bothKinds.map Step.asPlain)).1 = (runSteps .empty bothKinds).1.asPlain ∧
    ∃ x y, (runSteps .empty bothKinds).2[7]? = some x ∧
      (runSteps .empty (bothKinds.map Step.asPlain)).2[7]? = some y ∧
      Agree (runSteps .empty (bothKinds.take 7)).1 (.equal [97] [98]) x y := by
  have htyped : ∀ step ∈ bothKinds, step.WellTyped := by
    simp [bothKinds, Step.WellTyped, isInteger]
  obtain ⟨hlast, hagree⟩ := integral_as_plain .empty bothKinds htyped
  exact ⟨htyped, hlast, hagree 7 (.equal [97] [98]) rfl⟩

end Record

end ArgLine
