import ArgLine.Proofs.Execution

/-!
# ArgLine.Proofs.Settings

Settings stay valid, whatever the two variables go through.

* `read_applied` says what one reading of the environment does: each variable is applied to
  its own setting if its value is accepted, and a value that is refused is reported.
* A `History` is a program that reads its environment any number of times while the
  variables are set and unset in between.  `readings` lists what the variables hold at
  each reading.
* `settings_valid`: at every point of a history each setting is the last accepted value of its
  variable, or the default, so the level of a logger is never a guess.
-/

namespace ArgLine

namespace Settings

/-! ## values -/

/-- A value that is taken over as the level: the name of a level, and not empty. -/
def LevelAccepted (text : Bytes) : Prop := text ≠ [] ∧ ∃ l, Log.Level.parse? text = some l

/-- A value that is reported: not empty, and the name of no level. -/
def LevelRefused (text : Bytes) : Prop := text ≠ [] ∧ Log.Level.parse? text = none

/-- A value that is taken over as the output: not empty, and not standard output by name. -/
def OutputAccepted (output : Bytes) : Prop :=
  output ≠ [] ∧ output ≠ ascii "stdout" ∧ output ≠ ascii "/dev/stdout"

/-- A value that is reported: standard output by name. -/
def OutputRefused (output : Bytes) : Prop :=
  output = ascii "stdout" ∨ output = ascii "/dev/stdout"

instance (text : Bytes) : Decidable (LevelRefused text) := inferInstanceAs (Decidable (_ ∧ _))

instance (output : Bytes) : Decidable (OutputRefused output) :=
  inferInstanceAs (Decidable (_ ∨ _))

/-- What becomes of a setting when a variable is applied to it: the value of the variable if it is
accepted, and what it was before if not. -/
inductive Applied (ok : Bytes → Prop) : Option Bytes → Bytes → Bytes → Prop where
  | taken {x old} (h : ok x) : Applied ok (some x) old x
  | kept {value old} (h : ∀ x ∈ value, ¬ ok x) : Applied ok value old old

/-- A variable's value settles what a setting becomes. -/
theorem Applied.unique {ok : Bytes → Prop} {value : Option Bytes} {old new new' : Bytes}
    (h : Applied ok value old new) (h' : Applied ok value old new') : new = new' := by
  cases h with
  | taken hx =>
    cases h' with
    | taken => rfl
    | kept hkept => exact absurd hx (hkept _ rfl)
  | kept hkept =>
    cases h' with
    | taken hx => exact absurd hx (hkept _ rfl)
    | kept => rfl

/-- What is reported about an environment: the level if it is refused, then the output if it is. -/
def complaints (env : Environment) : List Diagnostic :=
  (env.level.filter LevelRefused).toList.map .level ++
    (env.output.filter OutputRefused).toList.map .reserved

/-! ## one reading -/

/-- The level variable is applied to the level, and reported if it is refused. -/
theorem readLevel_applied (c : Settings) (value : Option Bytes) :
    Applied LevelAccepted value c.level (c.readLevel value).1.level ∧
      (c.readLevel value).2 = (value.filter LevelRefused).toList.map .level := by
  unfold readLevel
  split
  · exact ⟨.kept (by simp), rfl⟩
  · exact ⟨.kept (by simp [LevelAccepted]), rfl⟩
  · next text hempty =>
    have htext : text ≠ [] := hempty
    cases h : Log.Level.parse? text with
    | none =>
      refine ⟨.kept (by simp [LevelAccepted, h]), ?_⟩
      simp [Option.filter_some, LevelRefused, htext, h]
    | some l =>
      refine ⟨.taken ⟨htext, l, h⟩, ?_⟩
      simp [Option.filter_some, LevelRefused, h]

/-- The output variable is applied to the output, and reported if it is refused. -/
theorem readOutput_applied (c : Settings) (value : Option Bytes) :
    Applied OutputAccepted value c.output (c.readOutput value).1.output ∧
      (c.readOutput value).2 = (value.filter OutputRefused).toList.map .reserved := by
  unfold readOutput
  split
  · exact ⟨.kept (by simp), rfl⟩
  · exact ⟨.kept (by simp [OutputAccepted]), rfl⟩
  · next output hempty =>
    have houtput : output ≠ [] := hempty
    by_cases h : OutputRefused output
    · rw [if_pos (isReserved_iff.2 h)]
      refine ⟨.kept ?_, by simp [Option.filter_some, h]⟩
      rintro x ⟨⟩ ⟨-, hstdout, hdevice⟩
      exact h.elim hstdout hdevice
    · rw [if_neg (fun hr => h (isReserved_iff.1 hr))]
      refine ⟨.taken ⟨houtput, not_or.1 h⟩, by simp [Option.filter_some, h]⟩

/-- What one reading does: each variable is applied to its own setting, whatever the other holds,
and what is refused is reported, the level first. -/
theorem read_applied (c : Settings) (env : Environment) :
    Applied LevelAccepted env.level c.level (c.read env).1.level ∧
    Applied OutputAccepted env.output c.output (c.read env).1.output ∧
    (c.read env).2 = complaints env := by
  have hlevel := c.readLevel_applied env.level
  have houtput := c.readOutput_applied env.output
  rw [read_fst]
  refine ⟨hlevel.1, houtput.1, ?_⟩
  -- what is reported about the output does not depend on the level that was taken over before
  have hsecond := (c.readLevel env.level).1.readOutput_applied env.output
  rw [read, complaints, ← hlevel.2, ← hsecond.2]

/-! ## histories -/

/-- What happens around a program that reads its environment more than once. -/
inductive Event where
  /-- The level variable is set, or unset. -/
  | level (value : Option Bytes)
  /-- The output variable is set, or unset. -/
  | output (value : Option Bytes)
  | read
  deriving DecidableEq, Repr

/-- The environment and the settings of a program, with all that was reported. -/
structure History where
  env : Environment
  settings : Settings
  reported : List Diagnostic
  deriving DecidableEq, Repr

namespace History

def start (env : Environment) : History := ⟨env, Settings.default, []⟩

def step (h : History) : Event → History
  | .level value => { h with env := { h.env with level := value } }
  | .output value => { h with env := { h.env with output := value } }
  | .read => ⟨h.env, (h.settings.read h.env).1, h.reported ++ (h.settings.read h.env).2⟩

def run (h : History) (events : List Event) : History := events.foldl step h

end History

/-- What the variables hold at each reading. -/
def readings (env : Environment) : List Event → List Environment
  | [] => []
  | .level value :: events => readings { env with level := value } events
  | .output value :: events => readings { env with output := value } events
  | .read :: events => env :: readings env events

/-- The last of some values that is accepted, and a default if none is. -/
inductive Last (ok : Bytes → Prop) (default : Bytes) : List (Option Bytes) → Bytes → Prop where
  | none {values} (h : ∀ value ∈ values, ∀ x ∈ value, ¬ ok x) : Last ok default values default
  | value {before x after} (h : ok x) (hafter : ∀ value ∈ after, ∀ y ∈ value, ¬ ok y) :
      Last ok default (before ++ some x :: after) x

/-- The last accepted value is accepted, and so is the default in its place. -/
theorem Last.accepted {ok : Bytes → Prop} {default x : Bytes} {values : List (Option Bytes)}
    (h : Last ok default values x) (hdefault : ok default) : ok x := by
  cases h with
  | none => exact hdefault
  | value hx => exact hx

/-- One more value is read: it is the last if it is accepted, and changes nothing if not. -/
theorem Last.concat {ok : Bytes → Prop} {default old new : Bytes} {values : List (Option Bytes)}
    {value : Option Bytes} (h : Last ok default values old) (ha : Applied ok value old new) :
    Last ok default (values ++ [value]) new := by
  cases ha with
  | taken hx => exact .value hx (by simp)
  | kept hkept =>
    have hlater {us : List (Option Bytes)} (hus : ∀ v ∈ us, ∀ x ∈ v, ¬ ok x) :
        ∀ v ∈ us ++ [value], ∀ x ∈ v, ¬ ok x := by
      intro v hv
      rcases List.mem_append.1 hv with hv | hv
      · exact hus v hv
      · obtain rfl := List.mem_singleton.1 hv
        exact hkept
    cases h with
    | none h => exact .none (hlater h)
    | value hx hafter =>
      rw [List.append_assoc, List.cons_append]
      exact .value hx (hlater hafter)

namespace History

/-- If each reading applies a variable to a setting, the setting is the last accepted value of the
variable after any events. -/
theorem last_run {ok : Bytes → Prop} {default : Bytes} {setting : Settings → Bytes}
    {value : Environment → Option Bytes}
    (hread : ∀ c env, Applied ok (value env) (setting c) (setting (c.read env).1))
    (events : List Event) {h : History} {values : List (Option Bytes)}
    (hlast : Last ok default values (setting h.settings)) :
    Last ok default (values ++ (readings h.env events).map value)
      (setting (h.run events).settings) := by
  induction events generalizing h values with
  | nil => simpa [readings, run] using hlast
  | cons event events ih =>
    cases event with
    | level value => exact @ih (h.step (.level value)) values hlast
    | output value => exact @ih (h.step (.output value)) values hlast
    | read =>
      have hnext := @ih (h.step .read) _ (hlast.concat (hread h.settings h.env))
      rwa [List.append_assoc] at hnext

/-- What a history reports is what each of its readings does, in order. -/
theorem reported_run (h : History) (events : List Event) :
    (h.run events).reported = h.reported ++ (readings h.env events).flatMap complaints := by
  induction events generalizing h with
  | nil => simp [readings, run]
  | cons event events ih =>
    cases event with
    | level value => exact ih (h.step (.level value))
    | output value => exact ih (h.step (.output value))
    | read =>
      have hnext : (h.run (.read :: events)).reported = h.reported ++
          (h.settings.read h.env).2 ++ (readings h.env events).flatMap complaints :=
        ih (h.step .read)
      rw [hnext, (h.settings.read_applied h.env).2.2, List.append_assoc]
      rfl

end History

theorem levelAccepted_default : LevelAccepted default.level := ⟨by decide, .warn, by decide +kernel⟩

theorem outputAccepted_default : OutputAccepted default.output := by
  unfold OutputAccepted
  decide

/-- A level that is accepted is the threshold, without a guess. -/
theorem parse?_level {c : Settings} (h : LevelAccepted c.level) :
    Log.Level.parse? c.level = some c.threshold := by
  obtain ⟨-, l, hl⟩ := h
  rw [threshold, hl]
  rfl

/-- A channel is silent or has the level of its settings; nothing else can come of opening it. -/
theorem logger_openChannel (c : Settings) (files : Files) :
    (c.openChannel files).2.1.logger = .silent ∨
      (c.openChannel files).2.1.logger = .atLeast c.threshold := by
  unfold openChannel
  cases Sink.openAddress files c.output with
  | error e => exact .inl rfl
  | ok result => exact .inr rfl

/-- **Settings stay valid through any history.**  After any events, the level is the last value of
its variable at a reading that names a level and is not empty, or `warn`; the output is the last
value of its variable at a reading that is neither empty nor standard output by name, or `stderr`.
One reading takes over each accepted value and leaves a setting alone otherwise, whatever the other
variable holds, and reports what it refuses, the level first.  So a logger that is opened for such
settings, or for those that a program starts with, has the level that they name. -/
theorem settings_valid (env : Environment) (events : List Event) :
    let h := (History.start env).run events
    let reads := readings env events
    LevelAccepted h.settings.level ∧
    Last LevelAccepted (ascii "warn") (reads.map Environment.level) h.settings.level ∧
    OutputAccepted h.settings.output ∧
    Last OutputAccepted (ascii "stderr") (reads.map Environment.output) h.settings.output ∧
    h.reported = reads.flatMap complaints ∧
    (∀ (c : Settings) (e : Environment),
      Applied LevelAccepted e.level c.level (c.read e).1.level ∧
      Applied OutputAccepted e.output c.output (c.read e).1.output ∧
      (c.read e).2 = complaints e) ∧
    (∀ (c c' : Settings) (e e' : Environment),
      (c.level = c'.level → e.level = e'.level → (c.read e).1.level = (c'.read e').1.level) ∧
      (c.output = c'.output → e.output = e'.output →
        (c.read e).1.output = (c'.read e').1.output)) ∧
    ∀ files c, c = h.settings ∨ c = (Launch.prepare env files).1 →
      ∃ l, Log.Level.parse? c.level = some l ∧
        ((c.openChannel files).2.1.logger = .silent ∨
          (c.openChannel files).2.1.logger = .atLeast l) := by
  intro h reads
  have hlevel (events : List Event) : Last LevelAccepted (ascii "warn")
      ((readings env events).map Environment.level)
      ((History.start env).run events).settings.level :=
    @History.last_run _ _ Settings.level _ (fun c e => (c.read_applied e).1) events
      (History.start env) [] (.none (by simp))
  have houtput : Last OutputAccepted (ascii "stderr") (reads.map Environment.output)
      h.settings.output :=
    @History.last_run _ _ Settings.output _ (fun c e => (c.read_applied e).2.1) events
      (History.start env) [] (.none (by simp))
  refine ⟨(hlevel events).accepted levelAccepted_default, hlevel events,
    houtput.accepted outputAccepted_default, houtput, History.reported_run _ events,
    read_applied, ?_, ?_⟩
  · intro c c' e e'
    have happlied := c.read_applied e
    have happlied' := c'.read_applied e'
    constructor
    · intro hsetting hvalue
      rw [hsetting, hvalue] at happlied
      exact happlied.1.unique happlied'.1
    · intro hsetting hvalue
      rw [hsetting, hvalue] at happlied
      exact happlied.2.1.unique happlied'.2.1
  · -- a program starts with what one reading leaves
    intro files c hc
    have haccepted : LevelAccepted c.level := by
      rcases hc with rfl | rfl
      · exact (hlevel events).accepted levelAccepted_default
      · exact (hlevel [.read]).accepted levelAccepted_default
    exact ⟨c.threshold, parse?_level haccepted, c.logger_openChannel files⟩

end Settings

end ArgLine
