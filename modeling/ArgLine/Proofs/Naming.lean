import ArgLine.Proofs.Execution
import ArgLine.Proofs.Outcome
import ArgLine.Proofs.Text.Decimal

/-!
# ArgLine.Proofs.Naming

The name of a variant tells which one it is.

* `Variant.name_inj`: no two codes have the same name.  The two names that are words start with
  other letters than the names that are made of a number, and the number in those can be read back.
* `Run.fails_as_unknown_iff`: so the text of a failure tells which unknown variant was asked for.
* `Launch.tellsVariant_iff`: and the variant in the log of a program tells which program ran.
-/

namespace ArgLine

namespace Variant

/-! ## names -/

/-- A run knows what to do. -/
def IsKnown (v : Variant) : Prop := v = plain ∨ v = aligned

def numbered (n : Int) : Bytes := ascii "Variant(" ++ Decimal.ofInt n ++ ascii ")"

/-- A variant that is not known is called by its number. -/
theorem name_of_not_isKnown {v : Variant} (h : ¬ v.IsKnown) : v.name = numbered v.code.toInt := by
  obtain ⟨hplain, haligned⟩ := not_or.1 h
  rw [name, if_neg hplain, if_neg haligned, numbered]

/-- A name that is made of a number starts with a capital letter, and the words do not. -/
theorem name_ne_numbered {v : Variant} (h : v.IsKnown) (n : Int) : v.name ≠ numbered n := by
  intro heq
  have hhead : v.name.head? = some 86 := by rw [heq]; rfl
  rcases h with rfl | rfl
  · exact absurd hhead (by decide)
  · exact absurd hhead (by decide)

theorem numbered_inj {m n : Int} : numbered m = numbered n ↔ m = n := by
  rw [numbered, numbered, List.append_left_inj, List.append_right_inj, Decimal.ofInt_inj]

/-- **No two variants have the same name.** -/
theorem name_inj {v w : Variant} : v.name = w.name ↔ v = w := by
  refine ⟨fun h => ?_, congrArg name⟩
  by_cases hv : v.IsKnown
  · by_cases hw : w.IsKnown
    · rcases hv with rfl | rfl <;> rcases hw with rfl | rfl
      · rfl
      · exact absurd h (by decide)
      · exact absurd h (by decide)
      · rfl
    · rw [name_of_not_isKnown hw] at h
      exact absurd h (name_ne_numbered hv _)
  · rw [name_of_not_isKnown hv] at h
    by_cases hw : w.IsKnown
    · exact absurd h.symm (name_ne_numbered hw _)
    · rw [name_of_not_isKnown hw, numbered_inj, Int64.toInt_inj] at h
      cases v
      cases w
      exact congrArg mk h

end Variant

/-! ## the text of a failure -/

namespace Run

section Perform

variable (a : Allocator) (s : Store) (logger : Log.Logger) (w : Writer) (args : List Bytes)
  (v : Variant)

/-- A run that fails was asked for an unknown variant, or could not write. -/
theorem outcome_eq_failed_iff {e : RunError} :
    (perform a s logger w args v).outcome = .failed e ↔
      ¬ v.IsKnown ∧ e = .unknownVariant v ∨ v.IsKnown ∧ finish w = .failed e := by
  by_cases hv : v.IsKnown
  · obtain ⟨after, hperform⟩ := perform_known a s hv
    simp [hperform, hv]
  · obtain ⟨hplain, haligned⟩ := not_or.1 hv
    simp [perform_unknown a s logger w args hplain haligned, hv, eq_comm]

/-- **The text of a failure tells the variant**: only a run that was asked for the unknown variant
`u` fails with the text about `u`. -/
theorem fails_as_unknown_iff {u : Variant} :
    (∃ e, (perform a s logger w args v).outcome = .failed e ∧
      e.message = ascii "unknown variant " ++ u.name) ↔ v = u ∧ ¬ u.IsKnown := by
  simp only [outcome_eq_failed_iff]
  constructor
  · rintro ⟨e, ⟨hv, rfl⟩ | ⟨-, hfinish⟩, hmessage⟩
    · obtain rfl : v = u := Variant.name_inj.1 (List.append_cancel_left hmessage)
      exact ⟨rfl, hv⟩
    · -- a failed write has a text of its own, which starts with another letter
      obtain ⟨n, text, -, rfl⟩ := finish_eq_failed_iff.1 hfinish
      have hhead : some (119 : UInt8) = some 117 := congrArg List.head? hmessage
      exact absurd hhead (by decide)
  · rintro ⟨rfl, hv⟩
    exact ⟨.unknownVariant v, .inl ⟨hv, rfl⟩, rfl⟩

end Perform

end Run

/-! ## the variant in a log -/

/-- An entry has no value for a key that is not among its keys. -/
theorem Log.Entry.not_mem_fields {e : Log.Entry} {key : Bytes} (h : key ∉ e.fields.map Field.key)
    (x : Value) : ⟨key, x⟩ ∉ e.fields :=
  fun hmem => h (List.mem_map_of_mem hmem)

namespace Effect

/-- An entry among some effects has the value in its field `variant`. -/
def TellsVariant (effects : List Effect) (x : Log.Value) : Prop :=
  ∃ e ∈ entries effects, ⟨ascii "variant", x⟩ ∈ e.fields

theorem tellsVariant_append {xs ys : List Effect} {x : Log.Value} :
    TellsVariant (xs ++ ys) x ↔ TellsVariant xs x ∨ TellsVariant ys x := by
  simp only [TellsVariant, entries_append, List.mem_append, or_and_right, exists_or]

/-- An entry tells a variant if it is delivered and has it among its fields. -/
theorem tellsVariant_delivered {logger : Log.Logger} {e : Log.Entry} {x : Log.Value} :
    TellsVariant ((logger.delivered e).map .logged) x ↔
      logger.enabled e.level = true ∧ ⟨ascii "variant", x⟩ ∈ e.fields := by
  rw [TellsVariant, entries_map_logged, Log.Logger.delivered]
  split
  · next h => simp [h]
  · next h => simp [h]

/-- A line that is written is no entry, so it tells nothing. -/
theorem not_tellsVariant_write (w : Writer) (text : Bytes) (x : Log.Value) :
    ¬ TellsVariant (Run.write w text) x := by
  simp [TellsVariant]

end Effect

namespace Run

/-- The entry about a record tells the name of its variant and no other. -/
theorem mem_fields_recordEntry {v : Variant} {truthy : Bool} {x : Log.Value} :
    ⟨ascii "variant", x⟩ ∈ (recordEntry v truthy).fields ↔ x = .text v.name := by
  have hkey : ascii "variant" ≠ ascii "truthy" := by decide
  simp [recordEntry, hkey]

section Tells

variable (a : Allocator) (s : Store) (logger : Log.Logger) (w : Writer) (args : List Bytes)
  (v : Variant) {x : Log.Value}

/-- A run that knows its variant tells it in the entry about the record, and nowhere else. -/
theorem tellsVariant_perform :
    Effect.TellsVariant (perform a s logger w args v).effects x ↔
      x = .text v.name ∧ v.IsKnown ∧ logger.enabled .debug = true := by
  by_cases hv : v.IsKnown
  · rcases hv with rfl | rfl
    · have hknown : Variant.plain.IsKnown := .inl rfl
      have hwrite := Effect.not_tellsVariant_write w (line args) x
      rw [perform_plain, Effect.tellsVariant_append, Effect.tellsVariant_delivered,
        mem_fields_recordEntry]
      simp only [hwrite, hknown, or_false, true_and]
      exact and_comm
    · have hknown : Variant.aligned.IsKnown := .inr rfl
      have hkeys : ascii "variant" ∉ [ascii "addr", ascii "size", ascii "align"] := by decide
      have hbuffer : ⟨ascii "variant", x⟩ ∉ (bufferEntry (buffer a s)).fields :=
        Log.Entry.not_mem_fields hkeys x
      have hwrite := Effect.not_tellsVariant_write w (line args) x
      rw [perform_aligned, Effect.tellsVariant_append, Effect.tellsVariant_append,
        Effect.tellsVariant_delivered, Effect.tellsVariant_delivered, mem_fields_recordEntry]
      simp only [hbuffer, hwrite, hknown, and_false, false_or, or_false, true_and]
      exact and_comm
  · obtain ⟨hplain, haligned⟩ := not_or.1 hv
    rw [perform_unknown a s logger w args hplain haligned]
    simp [Effect.TellsVariant, Effect.entries, hv]

/-- What a command adds to its run tells nothing about the variant. -/
theorem tellsVariant_execute :
    Effect.TellsVariant (execute a s logger w args v).2.1 x ↔
      Effect.TellsVariant (perform a s logger w args v).effects x := by
  unfold execute
  cases houtcome : (perform a s logger w args v).outcome with
  | done => simp only [houtcome]
  | aborted fault => simp only [houtcome]
  | failed e =>
    simp only [houtcome]
    have hlevel : (failureEntry e).level ≠ .panic := by simp [failureEntry]
    have hfailure : ¬ Effect.TellsVariant ((logger.log (failureEntry e)).1.map .logged) x := by
      by_cases hl : logger = .absent
      · subst hl
        simp [Log.Logger.log, Effect.TellsVariant, Effect.entries]
      · have hkeys : ascii "variant" ∉ [ascii "error"] := by decide
        rw [Log.Logger.log_of_ne_panic hl hlevel, Effect.tellsVariant_delivered]
        exact fun h => Log.Entry.not_mem_fields hkeys x h.2
    exact Effect.tellsVariant_append.trans (or_iff_left hfailure)

end Tells

end Run

namespace Launch

/-- **The variant in the log of a program is the one that ran**, and it is there if the logger
delivers it. -/
theorem tellsVariant_iff (a : Allocator) (l : Launch) (logger : Log.Logger) {x : Log.Value} :
    Effect.TellsVariant (l.effects a logger).1 x ↔
      x = .text l.variant.name ∧ l.variant.IsKnown ∧ logger.enabled .debug = true := by
  have hbuild : l.build.entry.level ≠ .panic := by simp [Build.entry]
  by_cases hl : logger = .absent
  · subst hl
    simp [effects, Log.Logger.log, Effect.TellsVariant, Effect.entries, Log.Logger.enabled]
  · have hkeys : ascii "variant" ∉ [ascii "version", ascii "date", ascii "commit"] := by decide
    unfold effects
    rw [Log.Logger.log_of_ne_panic hl hbuild]
    refine Effect.tellsVariant_append.trans ?_
    rw [Effect.tellsVariant_delivered, Run.tellsVariant_execute, Run.tellsVariant_perform]
    exact or_iff_right fun h => Log.Entry.not_mem_fields hkeys x h.2

end Launch

/-- **Variants are told apart by their names.**  Names that are made of a number are as different as
the numbers, sign included, and none of them is one of the two words.  So the text about an unknown
variant comes from a run of that variant and from no other, and a log that tells a variant is that
of the program which ran it. -/
theorem Variant.names_unambiguous :
    (∀ v w : Variant, v.name = w.name ↔ v = w) ∧
    (∀ m n : Int, Decimal.ofInt m = Decimal.ofInt n ↔ m = n) ∧
    (∀ n : Int, ascii "Variant(" ++ Decimal.ofInt n ++ ascii ")" ∉
      [ascii "plain", ascii "aligned"]) ∧
    (∀ a s logger w args v u, (∃ e, (Run.perform a s logger w args v).outcome = .failed e ∧
      e.message = ascii "unknown variant " ++ Variant.name u) ↔ v = u ∧ ¬ u.IsKnown) ∧
    ∀ a (l : Launch) logger,
      (∀ x, Effect.TellsVariant (l.effects a logger).1 x ↔
        x = .text l.variant.name ∧ l.variant.IsKnown ∧ logger.enabled .debug = true) ∧
      ∀ u : Variant, Effect.TellsVariant (l.effects a logger).1 (.text u.name) ↔
        l.variant = u ∧ u.IsKnown ∧ logger.enabled .debug = true := by
  refine ⟨fun v w => name_inj, fun m n => Decimal.ofInt_inj, fun n hmem => ?_,
    fun a s logger w args v u => Run.fails_as_unknown_iff a s logger w args v,
    fun a l logger => ⟨fun x => l.tellsVariant_iff a logger, fun u => ?_⟩⟩
  · rcases List.mem_pair.1 hmem with h | h
    · exact name_ne_numbered (.inl rfl) n h.symm
    · exact name_ne_numbered (.inr rfl) n h.symm
  · rw [l.tellsVariant_iff a logger, Log.Value.text.injEq, name_inj]
    constructor
    · rintro ⟨rfl, h⟩
      exact ⟨rfl, h⟩
    · rintro ⟨rfl, h⟩
      exact ⟨rfl, h⟩

/-- The least code there is, and one more than it. -/
example : Variant.name ⟨Int64.minValue⟩ = ascii "Variant(-9223372036854775808)" ∧
    Variant.name ⟨Int64.minValue + 1⟩ = ascii "Variant(-9223372036854775807)" := by decide +kernel

end ArgLine
