import ArgLine.Proofs.Record.Number

/-!
# ArgLine.Proofs.Record.Equality

Equality of records, for values of all types and records of both kinds.

* `Payload.Equal` and `AnyRecord.Equal` say when values and records are equal, with floats as the
  numbers they denote.  Both are partial equivalences: a value is equal to itself unless it is NaN
  or a list.
* `compare_eq_true_iff`: comparing finds out exactly that, and `compare_eq_error_iff`: it faults
  exactly for two lists.
* `equality_exact` puts them together.
-/

namespace ArgLine

/-! ## values -/

namespace Payload

/-- Two values are of one type and equal. -/
inductive Equal : Payload → Payload → Prop where
  | integer (n : Integer) : Equal (.integer n) (.integer n)
  | text (t : Bytes) : Equal (.text t) (.text t)
  | flag (b : Bool) : Equal (.flag b) (.flag b)
  /-- Both are the same number, whatever the bits. -/
  | float {x y : UInt64} {n : Float64.Number} (hx : Float64.number? x = some n)
      (hy : Float64.number? y = some n) : Equal (.float x) (.float y)

namespace Equal

variable {p q r : Payload}

theorem symm (h : Equal p q) : Equal q p := by
  cases h with
  | integer n => exact .integer n
  | text t => exact .text t
  | flag b => exact .flag b
  | float hx hy => exact .float hy hx

theorem trans (h : Equal p q) (h' : Equal q r) : Equal p r := by
  cases h with
  | integer | text | flag => exact h'
  | float hx hy =>
    cases h' with
    | float hy' hz =>
      obtain rfl := Option.some.inj (hy.symm.trans hy')
      exact .float hx hz

theorem type_eq (h : Equal p q) : p.type = q.type := by
  cases h <;> rfl

end Equal

/-- The value is the bits of a NaN. -/
def IsNaN (p : Payload) : Prop := ∃ x, p = .float x ∧ Float64.number? x = none

/-- What is equal to itself. -/
theorem equal_self_iff {p : Payload} : p.Equal p ↔ p.type ≠ .texts ∧ ¬ p.IsNaN := by
  cases p with
  | integer n => simp [Equal.integer, type, IsNaN]
  | text t => simp [Equal.text, type, IsNaN]
  | flag b => simp [Equal.flag, type, IsNaN]
  | float x =>
    cases hx : Float64.number? x with
    | none =>
      have hne : ¬ Equal (.float x) (.float x) := by
        rintro ⟨⟩
        simp_all
      simp [hne, IsNaN, hx]
    | some n => simp [Equal.float hx hx, type, IsNaN, hx]
  | texts list =>
    have hne : ¬ Equal (.texts list) (.texts list) := by rintro ⟨⟩
    simp [hne, type]

/-- A comparison of payloads fails for two lists of texts, and only then. -/
theorem compare_eq_error_iff {p q : Payload} {fault : Fault} :
    p.compare q = .error fault ↔
      (p.type = .texts ∧ q.type = .texts) ∧ fault = .uncomparable := by
  cases p <;> cases q <;> simp [compare, type, eq_comm]

/-- Payloads compare as equal exactly if they are. -/
theorem compare_eq_true_iff {p q : Payload} : p.compare q = .ok true ↔ p.Equal q := by
  constructor
  · intro h
    cases p <;> cases q <;> simp only [compare, Except.ok.injEq, reduceCtorEq, beq_iff_eq] at h
    case integer.integer => exact h ▸ .integer _
    case text.text => exact h ▸ .text _
    case flag.flag => exact h ▸ .flag _
    case float.float =>
      obtain ⟨n, hx, hy⟩ := Float64.same_iff.1 h
      exact .float hx hy
  · intro h
    cases h with
    | integer | text | flag => simp [compare]
    | float hx hy => exact congrArg Except.ok (Float64.same_iff.2 ⟨_, hx, hy⟩)

end Payload

/-! ## records -/

namespace AnyRecord

def isIntegral : AnyRecord → Bool
  | plain _ => false
  | integral _ => true

def type (a : AnyRecord) : PayloadType := a.toRecord.value.type

/-- An ordinary record of a list of texts. -/
def IsTexts (a : AnyRecord) : Prop := ∃ flag list label, a = plain ⟨flag, .texts list, label⟩

/-- Two records are of one kind and equal in every part. -/
structure Equal (a b : AnyRecord) : Prop where
  kind_eq : a.isIntegral = b.isIntegral
  type_eq : a.type = b.type
  flag_eq : a.toRecord.flag = b.toRecord.flag
  label_eq : a.toRecord.label = b.toRecord.label
  value : a.toRecord.value.Equal b.toRecord.value

/-- An integral record holds no list. -/
theorem isTexts_iff {a : AnyRecord} : a.IsTexts ↔ a.type = .texts := by
  constructor
  · rintro ⟨flag, list, label, rfl⟩
    rfl
  · intro h
    cases a with
    | integral r => simp [type, toRecord, Payload.type] at h
    | plain r =>
      obtain ⟨flag, value, label⟩ := r
      cases value with
      | texts list => exact ⟨flag, list, label, rfl⟩
      | integer | text | flag | float => simp [type, toRecord, Payload.type] at h

section Equal

variable {a b c : AnyRecord}

theorem Equal.symm (h : Equal a b) : Equal b a :=
  ⟨h.kind_eq.symm, h.type_eq.symm, h.flag_eq.symm, h.label_eq.symm, h.value.symm⟩

theorem Equal.trans (h : Equal a b) (h' : Equal b c) : Equal a c :=
  ⟨h.kind_eq.trans h'.kind_eq, h.type_eq.trans h'.type_eq, h.flag_eq.trans h'.flag_eq,
    h.label_eq.trans h'.label_eq, h.value.trans h'.value⟩

/-- Records that are equal are both true or both false. -/
theorem Equal.truthy_eq (h : Equal a b) : a.toRecord.truthy = b.toRecord.truthy := by
  rw [Record.truthy, Record.truthy, h.flag_eq]

/-- A record is equal to itself, unless its payload is not comparable or not a number. -/
theorem equal_self_iff : Equal a a ↔ ¬ a.IsTexts ∧ ¬ a.toRecord.value.IsNaN := by
  rw [isTexts_iff, type, ← ne_eq, ← Payload.equal_self_iff]
  exact ⟨fun h => h.value, fun h => ⟨rfl, rfl, rfl, rfl, h⟩⟩

/-- Records of one kind are compared by their values first. -/
theorem compare_of_kind_eq (h : a.isIntegral = b.isIntegral) :
    a.compare b = (a.toRecord.value.compare b.toRecord.value).map fun same =>
      same && a.toRecord.flag == b.toRecord.flag && a.toRecord.label == b.toRecord.label := by
  cases a <;> cases b <;> simp only [isIntegral, reduceCtorEq] at h
  case plain.plain r s =>
    simp only [compare, toRecord]
    cases r.value.compare s.value <;> rfl
  case integral.integral r s => rfl

/-- Records of different kinds are never equal, and the comparison does not fail. -/
theorem compare_of_kind_ne (h : a.isIntegral ≠ b.isIntegral) : a.compare b = .ok false := by
  cases a <;> cases b
  case plain.plain | integral.integral => exact absurd rfl h
  case plain.integral | integral.plain => rfl

theorem IsTexts.not_isNaN (h : a.IsTexts) : ¬ a.toRecord.value.IsNaN := by
  obtain ⟨flag, list, label, rfl⟩ := h
  rintro ⟨x, hvalue, -⟩
  cases hvalue

theorem IsTexts.kind_eq (h : a.IsTexts) : a.isIntegral = false := by
  obtain ⟨flag, list, label, rfl⟩ := h
  rfl

/-- A comparison of records fails if both hold texts, and only then. -/
theorem compare_eq_error_iff {fault : Fault} :
    a.compare b = .error fault ↔ (a.IsTexts ∧ b.IsTexts) ∧ fault = .uncomparable := by
  by_cases h : a.isIntegral = b.isIntegral
  · rw [isTexts_iff, isTexts_iff, type, type, ← Payload.compare_eq_error_iff, compare_of_kind_eq h]
    cases a.toRecord.value.compare b.toRecord.value <;> simp [Except.map]
  · have hlists : ¬ (a.IsTexts ∧ b.IsTexts) :=
      fun hlists => h (hlists.1.kind_eq.trans hlists.2.kind_eq.symm)
    simp [compare_of_kind_ne h, hlists]

/-- Records compare as equal exactly if they are. -/
theorem compare_eq_true_iff : a.compare b = .ok true ↔ Equal a b := by
  by_cases h : a.isIntegral = b.isIntegral
  · rw [compare_of_kind_eq h]
    constructor
    · intro hmap
      cases hvalue : a.toRecord.value.compare b.toRecord.value with
      | error fault => simp [hvalue, Except.map] at hmap
      | ok same =>
        simp only [hvalue, Except.map, Except.ok.injEq, Bool.and_eq_true, beq_iff_eq] at hmap
        obtain ⟨⟨rfl, hflag⟩, hlabel⟩ := hmap
        have hequal := Payload.compare_eq_true_iff.1 hvalue
        exact ⟨h, hequal.type_eq, hflag, hlabel, hequal⟩
    · intro hequal
      rw [Payload.compare_eq_true_iff.2 hequal.value, hequal.flag_eq, hequal.label_eq]
      simp [Except.map]
  · rw [compare_of_kind_ne h]
    simp only [Except.ok.injEq, Bool.false_eq_true, false_iff]
    exact fun hequal => h hequal.kind_eq

/-- Comparing that does not fault finds out whether the records are equal. -/
theorem compare_eq_ok_iff {result : Bool} :
    a.compare b = .ok result ↔ ¬ (a.IsTexts ∧ b.IsTexts) ∧ (result = true ↔ Equal a b) := by
  rw [← compare_eq_true_iff]
  cases hcompare : a.compare b with
  | error fault => simp [(compare_eq_error_iff.1 hcompare).1]
  | ok same =>
    have hlists : ¬ (a.IsTexts ∧ b.IsTexts) := by
      intro hlists
      have := hcompare.symm.trans (compare_eq_error_iff.2 ⟨hlists, rfl⟩)
      contradiction
    cases same <;> cases result <;> simp [hlists]

/-- Which of two records is asked does not matter. -/
theorem compare_comm : a.compare b = b.compare a := by
  cases hcompare : b.compare a with
  | error fault =>
    obtain ⟨⟨hb, ha⟩, hfault⟩ := compare_eq_error_iff.1 hcompare
    exact compare_eq_error_iff.2 ⟨⟨ha, hb⟩, hfault⟩
  | ok result =>
    obtain ⟨hlists, hresult⟩ := compare_eq_ok_iff.1 hcompare
    refine compare_eq_ok_iff.2 ⟨fun h => hlists h.symm, hresult.trans ?_⟩
    exact ⟨Equal.symm, Equal.symm⟩

end Equal

/-- **Equality of records is a partial equivalence.**  Comparing faults for two lists of texts and
for nothing else.  Otherwise it says whether the records are of one kind and equal in every part,
floats as the numbers they denote.  So it is symmetric and transitive, a record differs from itself
only if it holds NaN, and equal records count alike. -/
theorem equality_exact (a b c : AnyRecord) :
    (∀ fault, a.compare b = .error fault ↔
      (a.IsTexts ∧ b.IsTexts) ∧ fault = .uncomparable) ∧
    (∀ result, a.compare b = .ok result ↔
      ¬ (a.IsTexts ∧ b.IsTexts) ∧ (result = true ↔ Equal a b)) ∧
    (a.isIntegral ≠ b.isIntegral ∨ a.type ≠ b.type → a.compare b = .ok false) ∧
    a.compare b = b.compare a ∧
    (a.compare b = .ok true → b.compare c = .ok true → a.compare c = .ok true) ∧
    (a.compare a = .error .uncomparable ↔ a.IsTexts) ∧
    (a.compare a = .ok false ↔ a.toRecord.value.IsNaN) ∧
    (a.compare a = .ok true ↔ ¬ a.IsTexts ∧ ¬ a.toRecord.value.IsNaN) ∧
    (a.compare b = .ok true → a.toRecord.truthy = b.toRecord.truthy) := by
  refine ⟨fun fault => compare_eq_error_iff, fun result => compare_eq_ok_iff, ?_, compare_comm,
    ?_, ?_, ?_, ?_, ?_⟩
  · intro hdiffer
    have hne : ¬ Equal a b := fun h => hdiffer.elim (· h.kind_eq) (· h.type_eq)
    refine compare_eq_ok_iff.2 ⟨fun hlists => ?_, by simp [hne]⟩
    have htype := (isTexts_iff.1 hlists.1).trans (isTexts_iff.1 hlists.2).symm
    exact hdiffer.elim (· (hlists.1.kind_eq.trans hlists.2.kind_eq.symm)) (· htype)
  · simp only [compare_eq_true_iff]
    exact Equal.trans
  · rw [compare_eq_error_iff, and_self, and_iff_left rfl]
  · rw [compare_eq_ok_iff, equal_self_iff, and_self]
    constructor
    · intro h
      simpa [h.1] using h.2
    · intro hnan
      have hlists : ¬ a.IsTexts := fun hlists => hlists.not_isNaN hnan
      simp [hlists, hnan]
  · rw [compare_eq_true_iff, equal_self_iff]
  · rw [compare_eq_true_iff]
    exact Equal.truthy_eq

/-- The two zeros are equal through each other, and an integer is of another kind than the record
that can hold nothing else. -/
theorem equality_exact_zeros :
    compare (plain ⟨1, .float 0, []⟩) (plain ⟨1, .float 0x8000000000000000, []⟩) = .ok true ∧
    compare (plain ⟨1, .float 0x8000000000000000, []⟩) (plain ⟨1, .float 0, []⟩) = .ok true ∧
    compare (plain ⟨1, .float 0, []⟩) (plain ⟨1, .float 0, []⟩) = .ok true ∧
    compare (plain ⟨0, .integer ⟨.int, 32⟩, []⟩) (integral ⟨0, ⟨.int, 32⟩, []⟩) = .ok false ∧
    Record.truthy ⟨1, Payload.float 0, []⟩ =
      Record.truthy ⟨1, Payload.float 0x8000000000000000, []⟩ := by
  have hzeros : compare (plain ⟨1, .float 0, []⟩)
      (plain ⟨1, .float 0x8000000000000000, []⟩) = .ok true := by decide
  have hback : compare (plain ⟨1, .float 0x8000000000000000, []⟩)
      (plain ⟨1, .float 0, []⟩) = .ok true := by decide
  obtain ⟨-, -, -, -, htrans, -, -, -, htruthy⟩ := equality_exact (plain ⟨1, .float 0, []⟩)
    (plain ⟨1, .float 0x8000000000000000, []⟩) (plain ⟨1, .float 0, []⟩)
  have hkinds := (equality_exact (plain ⟨0, .integer ⟨.int, 32⟩, []⟩)
    (integral ⟨0, ⟨.int, 32⟩, []⟩) (integral ⟨0, ⟨.int, 32⟩, []⟩)).2.2.1 (.inl (by decide))
  exact ⟨hzeros, hback, htrans hzeros hback, hkinds, htruthy hzeros⟩

end AnyRecord

end ArgLine
