import ArgLine.Build
import ArgLine.Proofs.Execution
import ArgLine.Proofs.Outcome

/-!
# ArgLine.Proofs.Neutrality

Logging does not influence what a run does.

* `perform_filtered` and `execute_filtered`: a run under any logger is the run under a logger that
  delivers everything, less the entries that its own logger drops.
* Dropping entries keeps the output, the writes and the order (`Effect.output_filter_passes`,
  `Effect.writes_filter_passes`), and dropping by a higher threshold after a lower one is dropping by
  the higher one (`filter_enabled_of_le`).
* `logging_neutral`: so two loggers can be told apart by the entries only, and a higher threshold
  delivers those entries of a lower one that reach it.
-/

namespace ArgLine

namespace Log.Logger

/-- The logger that delivers everything. -/
def verbose : Logger := .atLeast .debug

theorem enabled_verbose (l : Level) : verbose.enabled l = true :=
  decide_eq_true (Nat.zero_le l.rank)

theorem filter_enabled_verbose (es : List Entry) :
    es.filter (fun e => verbose.enabled e.level) = es :=
  List.filter_eq_self.2 fun e _ => enabled_verbose e.level

/-- What reaches the higher of two thresholds, out of what reaches the lower. -/
theorem filter_enabled_of_le {low high : Level} (h : low ≤ high) (es : List Entry) :
    (es.filter fun e => (atLeast low).enabled e.level).filter (fun e => high ≤ e.level) =
      es.filter fun e => (atLeast high).enabled e.level := by
  rw [List.filter_filter]
  refine List.filter_congr fun e _ => ?_
  by_cases hhigh : high ≤ e.level
  · have hlow : low ≤ e.level := Nat.le_trans h hhigh
    simp [enabled, hhigh, hlow]
  · simp [enabled, hhigh]

end Log.Logger

/-! ## dropping entries -/

namespace Effect

/-- Whether an effect is seen under a logger: an entry if it is delivered, a write always. -/
def passes (logger : Log.Logger) : Effect → Bool
  | logged e => logger.enabled e.level
  | wrote _ _ => true

section Passes

variable (logger : Log.Logger)

theorem filter_passes_map_logged (es : List Log.Entry) :
    (es.map logged).filter (passes logger) =
      (es.filter fun e => logger.enabled e.level).map logged :=
  List.filter_map ..

/-- A logger has no say in what is written. -/
theorem filter_passes_write (w : Writer) (text : Bytes) :
    (Run.write w text).filter (passes logger) = Run.write w text := by
  cases w <;> rfl

/-- The entries that are left are those of the levels that the logger takes. -/
theorem entries_filter_passes (effects : List Effect) :
    entries (effects.filter (passes logger)) =
      (entries effects).filter fun e => logger.enabled e.level := by
  unfold entries
  rw [List.filterMap_filter, List.filter_filterMap]
  congr 1
  funext effect
  cases effect with
  | logged e => cases he : logger.enabled e.level <;> simp [passes, he, Option.filter]
  | wrote offered kept => rfl

theorem output_filter_passes (effects : List Effect) :
    output (effects.filter (passes logger)) = output effects := by
  induction effects with
  | nil => rfl
  | cons effect effects ih =>
    unfold output at ih ⊢
    rw [List.filter_cons, List.flatMap_cons, ← ih]
    cases effect with
    | logged e => cases he : logger.enabled e.level <;> simp [passes, he]
    | wrote offered kept => rfl

theorem writes_filter_passes (effects : List Effect) :
    writes (effects.filter (passes logger)) = writes effects := by
  unfold writes
  rw [List.filter_filter]
  congr 2
  funext effect
  cases effect with
  | logged e => rfl
  | wrote offered kept => rfl

end Passes

end Effect

namespace Run

/-! ## a run under a logger -/

section Filtered

variable (a : Allocator) (s : Store) (logger : Log.Logger) (w : Writer) (args : List Bytes)
  (v : Variant)

/-- A run under a logger is the run that logs everything, less what the logger drops. -/
theorem perform_filtered :
    perform a s logger w args v =
      { perform a s .verbose w args v with
        effects := (perform a s .verbose w args v).effects.filter (Effect.passes logger) } := by
  by_cases hv : v = .plain ∨ v = .aligned
  · obtain ⟨after, hperform⟩ := perform_known a s hv
    rw [hperform, hperform, Log.Logger.filter_enabled_verbose, List.filter_append,
      Effect.filter_passes_map_logged, Effect.filter_passes_write]
  · rw [not_or] at hv
    rw [perform_unknown a s logger w args hv.1 hv.2, perform_unknown a s .verbose w args hv.1 hv.2]
    rfl

/-- The run of a command under a logger that is there is the one that logs everything, less what
the logger drops. -/
theorem execute_filtered (hl : logger ≠ .absent) :
    execute a s logger w args v =
      ((execute a s .verbose w args v).1,
        (execute a s .verbose w args v).2.1.filter (Effect.passes logger),
        (execute a s .verbose w args v).2.2) := by
  unfold execute
  rw [perform_filtered a s logger w args v]
  cases houtcome : (perform a s .verbose w args v).outcome with
  | done => simp only [houtcome]
  | aborted fault => simp only [houtcome]
  | failed e =>
    have hlevel : (failureEntry e).level ≠ .panic := by simp [failureEntry]
    have hverbose : Log.Logger.verbose ≠ .absent := by simp [Log.Logger.verbose]
    simp only [houtcome, Log.Logger.log_of_ne_panic hl hlevel,
      Log.Logger.log_of_ne_panic hverbose hlevel, Log.Logger.delivered_eq_filter,
      Log.Logger.filter_enabled_verbose, List.filter_append, Effect.filter_passes_map_logged]

end Filtered

/-! ## two loggers -/

def parts (r : Run) : Store × List Effect × Outcome RunError := (r.store, r.effects, r.outcome)

/-- Two runs that only their entries can tell apart. -/
structure Indistinct (p q : Store × List Effect × ε) : Prop where
  store_eq : p.1 = q.1
  output_eq : Effect.output p.2.1 = Effect.output q.2.1
  writes_eq : Effect.writes p.2.1 = Effect.writes q.2.1
  outcome_eq : p.2.2 = q.2.2

/-- Dropping entries, in one way or another, cannot be told apart but by the entries. -/
theorem indistinct_filter (logger logger' : Log.Logger) (s : Store) (effects : List Effect)
    (outcome : ε) :
    Indistinct (s, effects.filter (Effect.passes logger), outcome)
      (s, effects.filter (Effect.passes logger'), outcome) :=
  { store_eq := rfl
    output_eq := by rw [Effect.output_filter_passes, Effect.output_filter_passes]
    writes_eq := by rw [Effect.writes_filter_passes, Effect.writes_filter_passes]
    outcome_eq := rfl }

section TwoLoggers

variable (a : Allocator) (s : Store) (w : Writer) (args : List Bytes) (v : Variant)

/-- Two runs with different loggers cannot be told apart but by their entries. -/
theorem indistinct_perform (logger logger' : Log.Logger) :
    Indistinct (perform a s logger w args v).parts (perform a s logger' w args v).parts := by
  rw [perform_filtered a s logger, perform_filtered a s logger']
  exact indistinct_filter logger logger' _ _ _

/-- Two commands with different loggers cannot be told apart either, if both have one. -/
theorem indistinct_execute {logger logger' : Log.Logger} (hl : logger ≠ .absent)
    (hl' : logger' ≠ .absent) :
    Indistinct (execute a s logger w args v) (execute a s logger' w args v) := by
  rw [execute_filtered a s logger w args v hl, execute_filtered a s logger' w args v hl']
  exact indistinct_filter logger logger' _ _ _

variable {low high : Log.Level} (h : low ≤ high)

include h

/-- Among some effects, the entries that reach the higher of two thresholds. -/
theorem entries_filter_passes_of_le (effects : List Effect) :
    Effect.entries (effects.filter (Effect.passes (.atLeast high))) =
      (Effect.entries (effects.filter (Effect.passes (.atLeast low)))).filter
        fun e => high ≤ e.level := by
  rw [Effect.entries_filter_passes, Effect.entries_filter_passes,
    Log.Logger.filter_enabled_of_le h]

/-- A run at a higher level logs what it logs at a lower one, without what is below. -/
theorem entries_perform_of_le :
    Effect.entries (perform a s (.atLeast high) w args v).effects =
      (Effect.entries (perform a s (.atLeast low) w args v).effects).filter
        fun e => high ≤ e.level := by
  rw [perform_filtered a s (.atLeast high), perform_filtered a s (.atLeast low)]
  exact entries_filter_passes_of_le h _

/-- The same holds of a command, its report of a failure included. -/
theorem entries_execute_of_le :
    Effect.entries (execute a s (.atLeast high) w args v).2.1 =
      (Effect.entries (execute a s (.atLeast low) w args v).2.1).filter
        fun e => high ≤ e.level := by
  rw [execute_filtered a s (.atLeast high) w args v (by simp),
    execute_filtered a s (.atLeast low) w args v (by simp)]
  exact entries_filter_passes_of_le h _

end TwoLoggers

theorem log_build_of_le {low high : Log.Level} (h : low ≤ high) (build : Build) :
    ((Log.Logger.atLeast high).log build.entry).1 =
      ((Log.Logger.atLeast low).log build.entry).1.filter fun e => high ≤ e.level := by
  have hlevel : build.entry.level ≠ .panic := by simp [Build.entry]
  rw [Log.Logger.log_of_ne_panic (by simp) hlevel, Log.Logger.log_of_ne_panic (by simp) hlevel,
    Log.Logger.delivered_eq_filter, Log.Logger.delivered_eq_filter,
    Log.Logger.filter_enabled_of_le h]

/-- **Logging never influences what a run does.**  Under any two loggers, also none, a run has the
same output, number of writes and end; the run of a command has too, under any two loggers that are
there.  Of two thresholds, the higher delivers those entries of the lower that reach it, in their
order. -/
theorem logging_neutral (a : Allocator) (s : Store) (w : Writer) (args : List Bytes)
    (v : Variant) :
    (∀ logger logger',
      Indistinct (perform a s logger w args v).parts (perform a s logger' w args v).parts) ∧
    (∀ logger logger', logger ≠ .absent → logger' ≠ .absent →
      Indistinct (execute a s logger w args v) (execute a s logger' w args v)) ∧
    ∀ low high : Log.Level, low ≤ high →
      Effect.entries (perform a s (.atLeast high) w args v).effects =
        (Effect.entries (perform a s (.atLeast low) w args v).effects).filter
          (fun e => high ≤ e.level) ∧
      Effect.entries (execute a s (.atLeast high) w args v).2.1 =
        (Effect.entries (execute a s (.atLeast low) w args v).2.1).filter
          (fun e => high ≤ e.level) ∧
      ∀ build : Build, ((Log.Logger.atLeast high).log build.entry).1 =
        ((Log.Logger.atLeast low).log build.entry).1.filter fun e => high ≤ e.level := by
  refine ⟨indistinct_perform a s w args v, fun logger logger' => ?_, fun low high h => ?_⟩
  · exact indistinct_execute a s w args v
  · exact ⟨entries_perform_of_le a s w args v h, entries_execute_of_le a s w args v h,
      log_build_of_le h⟩

/-- An aligned command on a full disk: with the log at `error` only the failure is left of its
entries, and without any log it does the same. -/
theorem logging_neutral_full :
    Log.Level.debug ≤ Log.Level.error ∧
    Effect.entries (execute .spread .empty (.atLeast .error) (.failing 1 (ascii "full"))
      [ascii "x"] .aligned).2.1 = [failureEntry (.write (ascii "full"))] ∧
    Effect.entries (execute .spread .empty (.atLeast .error) (.failing 1 (ascii "full"))
      [ascii "x"] .aligned).2.1 =
        (Effect.entries (execute .spread .empty (.atLeast .debug) (.failing 1 (ascii "full"))
          [ascii "x"] .aligned).2.1).filter (fun e => Log.Level.error ≤ e.level) ∧
    Indistinct
      (execute .spread .empty (.atLeast .error) (.failing 1 (ascii "full")) [ascii "x"] .aligned)
      (execute .spread .empty .silent (.failing 1 (ascii "full")) [ascii "x"] .aligned) := by
  have hle : Log.Level.debug ≤ Log.Level.error := by decide
  have hneutral := logging_neutral .spread .empty (.failing 1 (ascii "full")) [ascii "x"] .aligned
  exact ⟨hle, by decide +kernel, (hneutral.2.2 .debug .error hle).2.1,
    hneutral.2.1 (.atLeast .error) .silent (by decide) (by decide)⟩

end Run

end ArgLine
