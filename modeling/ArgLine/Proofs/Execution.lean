import ArgLine.Program
import ArgLine.Proofs.Files
import ArgLine.Proofs.Outcome

/-!
# ArgLine.Proofs.Execution

What a whole program does, for every environment and every writer that returns.

* `Environment.threshold` and `Environment.destination` say what the two variables ask
  for, each with its own fallback; `prepare_of_ok` and `prepare_of_error` give the channel
  that is opened for them.
* `effects_eq`: a program logs its build and its run, offers its line once, and logs one
  more entry if the write failed.
* `run_accounted`: the same as it is seen from outside, with every log line in the place
  that the environment names.
-/

namespace ArgLine

/-! ## what the environment asks for -/

namespace Environment

/-- The least level that is wanted: the one that the variable names, `warn` if it is unset or empty
or names none. -/
def threshold (env : Environment) : Log.Level :=
  if env.level.getD [] = [] then .warn
  else (Log.Level.parse? (env.level.getD [])).getD .warn

/-- Where log lines are to go: the address in the variable, standard error if it is unset, empty or
standard output by name. -/
def destination (env : Environment) : Bytes :=
  if env.output.getD [] ∈ [[], ascii "stdout", ascii "/dev/stdout"] then ascii "stderr"
  else env.output.getD []

/-- The files once the destination is open, and the sink that it is.  Lines go nowhere if it
cannot be opened. -/
def opened (env : Environment) (files : Files) : Files × Sink :=
  (Sink.openAddress files env.destination).toOption.getD (files, .discard)

def delivers (env : Environment) (files : Files) (e : Log.Entry) : Bool :=
  (Sink.openAddress files env.destination).isOk && env.threshold ≤ e.level

end Environment

namespace Settings

/-- Each variable decides about its own setting. -/
theorem read_fst (c : Settings) (env : Environment) :
    (c.read env).1 =
      ⟨(c.readLevel env.level).1.level, (c.readOutput env.output).1.output⟩ := by
  have hkept : (c.readLevel env.level).1.output = c.output := by
    unfold readLevel
    split
    · rfl
    · rfl
    · split <;> rfl
  have hown : ∀ d : Settings, d.output = c.output →
      (d.readOutput env.output).1 = ⟨d.level, (c.readOutput env.output).1.output⟩ := by
    intro d hd
    unfold readOutput
    split
    · rw [← hd]
    · rw [← hd]
    · split
      · rw [← hd]
      · rfl
  exact hown _ hkept

/-- The settings read from an environment have the level that it asks for. -/
theorem threshold_read_default (env : Environment) :
    (default.read env).1.threshold = env.threshold := by
  have hdefault : (Log.Level.parse? default.level).getD .warn = .warn := by decide +kernel
  rw [read_fst]
  unfold threshold readLevel Environment.threshold
  cases env.level with
  | none => simp [hdefault]
  | some text =>
    cases text with
    | nil => simp [hdefault]
    | cons b rest =>
      cases hparse : Log.Level.parse? (b :: rest) with
      | none => simp [hparse, hdefault]
      | some level => simp [hparse]

/-- Two texts are refused as outputs, and no others. -/
theorem isReserved_iff {output : Bytes} :
    isReserved output = true ↔ output = ascii "stdout" ∨ output = ascii "/dev/stdout" := by
  simp [isReserved]

/-- The settings read from an environment have the address that it asks for. -/
theorem output_read_default (env : Environment) :
    (default.read env).1.output = env.destination := by
  rw [read_fst]
  unfold readOutput Environment.destination
  cases env.output with
  | none => simp [default]
  | some output =>
    cases output with
    | nil => simp [default]
    | cons b rest =>
      by_cases hname : b :: rest = ascii "stdout" ∨ b :: rest = ascii "/dev/stdout"
      · simp [isReserved_iff, hname, default]
      · simp [isReserved_iff, hname]

end Settings

namespace Launch

/-- A destination that can be opened gets the entries from the threshold on. -/
theorem prepare_of_ok {env : Environment} {files opened : Files} {sink : Sink}
    (h : Sink.openAddress files env.destination = .ok (opened, sink)) :
    (prepare env files).2.1 = opened ∧
      (prepare env files).2.2.1 = ⟨.atLeast env.threshold, sink, .fresh⟩ := by
  have hopen : (Settings.default.read env).1.openChannel files =
      (opened, ⟨.atLeast env.threshold, sink, .fresh⟩, []) := by
    rw [Settings.openChannel, Settings.output_read_default, h, Settings.threshold_read_default]
  simp [prepare, hopen]

/-- One that cannot be opened changes no file and gets nothing. -/
theorem prepare_of_error {env : Environment} {files : Files} {error : SinkError}
    (h : Sink.openAddress files env.destination = .error error) :
    (prepare env files).2.1 = files ∧ (prepare env files).2.2.1 = .silent := by
  have hopen : (Settings.default.read env).1.openChannel files =
      (files, .silent, [.sink env.destination error]) := by
    rw [Settings.openChannel, Settings.output_read_default, h]
  simp [prepare, hopen]

/-- A program writes its log to what the environment opens. -/
theorem prepare_opened (env : Environment) (files : Files) :
    ((prepare env files).2.1, (prepare env files).2.2.1.sink) = env.opened files := by
  unfold Environment.opened
  cases h : Sink.openAddress files env.destination with
  | ok result => simp [prepare_of_ok h, Except.toOption]
  | error error => simp [prepare_of_error h, Except.toOption, Channel.silent]

/-- The logger of a program lets an entry through if the environment delivers it. -/
theorem enabled_prepare (env : Environment) (files : Files) (e : Log.Entry) :
    (prepare env files).2.2.1.logger.enabled e.level = env.delivers files e := by
  unfold Environment.delivers
  cases h : Sink.openAddress files env.destination with
  | ok result => simp [prepare_of_ok h, Log.Logger.enabled, Except.isOk, Except.toBool]
  | error error =>
    simp [prepare_of_error h, Channel.silent, Log.Logger.enabled, Except.isOk, Except.toBool]

/-- The logger of a program is never absent. -/
theorem prepare_logger_ne_absent (env : Environment) (files : Files) :
    (prepare env files).2.2.1.logger ≠ .absent := by
  cases h : Sink.openAddress files env.destination with
  | ok result => simp [prepare_of_ok h]
  | error error => simp [prepare_of_error h, Channel.silent]

end Launch

/-! ## the effects -/

namespace Log.Logger

/-- Logging ends normally, except where the level says otherwise. -/
theorem log_of_ne_panic {logger : Logger} (hl : logger ≠ .absent) {e : Entry}
    (he : e.level ≠ .panic) : logger.log e = (logger.delivered e, none) := by
  cases logger with
  | absent => exact absurd rfl hl
  | silent => simp [log, he]
  | atLeast t => simp [log, he]

end Log.Logger

namespace Writer

/-- A write returns: it keeps everything, or keeps a part without an error or with one. -/
def Returns (w : Writer) : Prop :=
  w = .accepting ∨ (∃ n, w = .short n) ∨ ∃ n text, w = .failing n text

/-- A writer that returns was offered the text. -/
theorem Returns.exists_keep? {w : Writer} (h : w.Returns) (text : Bytes) :
    ∃ kept, w.keep? text = some kept := by
  rcases h with rfl | ⟨n, rfl⟩ | ⟨n, reason, rfl⟩
  · exact ⟨text, rfl⟩
  · exact ⟨text.take n, rfl⟩
  · exact ⟨text.take n, rfl⟩

end Writer

namespace Run

def failures (w : Writer) : List Log.Entry :=
  w.failure?.toList.map fun text =>
    ⟨.error, ascii "demo run failed",
      [⟨ascii "error", .text (ascii "write output: " ++ text)⟩]⟩

/-- The run of a command with a writer that returns: it logs what is due, offers its line, and logs
a write that failed.  Nothing remains. -/
theorem execute_eq (a : Allocator) {logger : Log.Logger} (hl : logger ≠ .absent) {w : Writer}
    (hw : w.Returns) (args : List Bytes) {v : Variant} (hv : v = .plain ∨ v = .aligned) :
    (execute a .empty logger w args v).2 =
      (((due v (buffer a .empty).address).filter fun e => logger.enabled e.level).map .logged ++
        write w (line args) ++
        ((failures w).filter fun e => logger.enabled e.level).map .logged, none) := by
  obtain ⟨after, hperform⟩ := perform_known a .empty hv
  unfold execute
  rw [hperform]
  rcases hw with rfl | ⟨n, rfl⟩ | ⟨n, text, rfl⟩
  · simp [finish, Writer.finish, Outcome.mapError, failures, Writer.failure?]
  · simp [finish, Writer.finish, Outcome.mapError, failures, Writer.failure?]
  · have herror : (failureEntry (.write text)).level ≠ .panic := by simp [failureEntry]
    have hlog := Log.Logger.log_of_ne_panic hl herror
    have hfailures : failures (.failing n text) = [failureEntry (.write text)] := rfl
    simp [finish, Writer.finish, Outcome.mapError, hlog, hfailures,
      Log.Logger.delivered_eq_filter]

end Run

namespace Launch

/-- What a program has to log: its build, then what its run has to log. -/
def entries (a : Allocator) (l : Launch) : List Log.Entry :=
  l.build.entry :: Run.due l.variant (Run.buffer a .empty).address

/-- **What a program does** if its write returns: it logs what is delivered, offers its line once,
and logs the failure of the write. -/
theorem effects_eq (a : Allocator) {l : Launch} {logger : Log.Logger} (hl : logger ≠ .absent)
    (hv : l.variant = .plain ∨ l.variant = .aligned) (hout : l.stdout.Returns) :
    l.effects a logger =
      (((l.entries a).filter fun e => logger.enabled e.level).map .logged ++
        Run.write l.stdout (line l.args) ++
        ((Run.failures l.stdout).filter fun e => logger.enabled e.level).map .logged, none) := by
  have hbuild : l.build.entry.level ≠ .panic := by simp [Build.entry]
  have hrun := Run.execute_eq a hl hout l.args hv
  have hentries : l.entries a =
      [l.build.entry] ++ Run.due l.variant (Run.buffer a .empty).address := rfl
  unfold effects
  rw [Log.Logger.log_of_ne_panic hl hbuild, Log.Logger.delivered_eq_filter]
  simp only [hrun, hentries, List.filter_append, List.map_append, List.append_assoc]

end Launch

/-! ## the world -/

namespace World

variable (w : World) (stdout : Writer) (sink : Sink) (es : List Log.Entry)

theorem foldl_play_logged :
    (es.map Effect.logged).foldl (fun w e => w.play stdout sink e) w = w.record stdout sink es := by
  rw [List.foldl_map]
  rfl

theorem record_cons (e : Log.Entry) :
    w.record stdout sink (e :: es) = (w.send stdout sink e.line).record stdout sink es := rfl

/-- What standard output shows of some entries: if it is the sink, what is kept of their lines. -/
def shown : Bytes :=
  match sink with
  | .stdout _ => es.flatMap fun e => (stdout.keep? e.line).getD []
  | _ => []

/-- What standard error shows of some entries: if it is the sink, their lines, and if standard
output is, an error for each line that could not be written. -/
def told : Bytes :=
  match sink with
  | .stdout name => es.flatMap fun _ => writeError stdout name
  | .stderr => es.flatMap Log.Entry.line
  | _ => []

theorem shown_nil : shown stdout sink [] = [] := by
  cases sink <;> rfl

theorem told_append (es' : List Log.Entry) :
    told stdout sink (es ++ es') = told stdout sink es ++ told stdout sink es' := by
  cases sink <;> simp [told]

/-- Standard error after some entries: what it had, then what it shows of them. -/
theorem stderr_record : (w.record stdout sink es).stderr = w.stderr ++ told stdout sink es := by
  induction es generalizing w with
  | nil => cases sink <;> simp [record, told]
  | cons e es ih =>
    rw [record_cons, ih]
    cases sink <;> simp [send, told]

/-- Standard output after some entries: what it had, then what it shows of them. -/
theorem stdout_record : (w.record stdout sink es).stdout = w.stdout ++ shown stdout sink es := by
  induction es generalizing w with
  | nil => cases sink <;> simp [record, shown]
  | cons e es ih =>
    rw [record_cons, ih]
    cases sink <;> simp [send, shown]

/-- The files after some entries: those that received all lines at once. -/
theorem files_record :
    (w.record stdout sink es).files = w.files.receive sink (es.flatMap Log.Entry.line) := by
  induction es generalizing w with
  | nil => rw [List.flatMap_nil, Files.receive_nil]; rfl
  | cons e es ih =>
    have hsend : (w.send stdout sink e.line).files = w.files.receive sink e.line := by
      cases sink <;> rfl
    rw [record_cons, ih, hsend, Files.receive_receive, List.flatMap_cons]

end World

namespace Launch

/-- What a program has to report before its line: its build, with `N/A` for what is not known of it,
and what its run reports.  `addr` is where its buffer lies. -/
def due (v : Variant) (version date commit : Bytes) (addr : UInt64) : List Log.Entry :=
  ⟨.debug, ascii "build info",
    [⟨ascii "version", .text (if version = [] then ascii "N/A" else version)⟩,
      ⟨ascii "date", .text (if date = [] then ascii "N/A" else date)⟩,
      ⟨ascii "commit", .text (if commit = [] then ascii "N/A" else commit)⟩]⟩ :: Run.due v addr

/-- A program with a build of three texts has to log what is due for them. -/
theorem entries_eq_due (a : Allocator) (v : Variant) (env : Environment) (args : List Bytes)
    (version date commit : Bytes) (stdout : Writer) :
    entries a ⟨v, env, args, .ofTexts version date commit, stdout⟩ =
      due v version date commit (Run.buffer a .empty).address := rfl

/-- A program ended normally, wrote its line once, and sent what is delivered of the entries
`before` and `after` the write to its destination. -/
structure Accounted (a : Allocator) (l : Launch) (w : World) (kept : Bytes)
    (before after : List Log.Entry) : Prop where
  returns : (l.run a w).2 = none
  effects_eq : (l.execute a w.files).effects =
    (before.filter (l.env.delivers w.files)).map .logged ++ [.wrote (line l.args) kept] ++
      (after.filter (l.env.delivers w.files)).map .logged
  files_eq : (l.run a w).1.files =
    (l.env.opened w.files).1.receive (l.env.opened w.files).2
      (((before ++ after).filter (l.env.delivers w.files)).flatMap Log.Entry.line)
  /-- Reports about the environment come first. -/
  stderr_eq : (l.run a w).1.stderr =
    w.stderr ++ (l.execute a w.files).diagnostics.flatMap Diagnostic.line ++
      World.told l.stdout (l.env.opened w.files).2
        ((before ++ after).filter (l.env.delivers w.files))
  stdout_eq : (l.run a w).1.stdout =
    w.stdout ++
      World.shown l.stdout (l.env.opened w.files).2 (before.filter (l.env.delivers w.files)) ++
      kept ++ World.shown l.stdout (l.env.opened w.files).2 (after.filter (l.env.delivers w.files))

/-- What a program does in a tree of files, with its entries filtered by the environment alone. -/
theorem execute_effects (a : Allocator) {l : Launch}
    (hv : l.variant = .plain ∨ l.variant = .aligned) (hout : l.stdout.Returns) (files : Files)
    {kept : Bytes} (hkept : l.stdout.keep? (line l.args) = some kept) :
    ((l.execute a files).effects, (l.execute a files).fault) =
      (((l.entries a).filter (l.env.delivers files)).map .logged ++ [.wrote (line l.args) kept] ++
        ((Run.failures l.stdout).filter (l.env.delivers files)).map .logged, none) := by
  have hwrite : Run.write l.stdout (line l.args) = [.wrote (line l.args) kept] := by
    rw [Run.write, hkept]
  have hdelivers : (fun e : Log.Entry => (prepare l.env files).2.2.1.logger.enabled e.level) =
      l.env.delivers files := funext (enabled_prepare l.env files)
  have heffects := effects_eq a (prepare_logger_ne_absent l.env files) hv hout
  rw [hdelivers, hwrite] at heffects
  exact heffects

/-- The world after a program: its reports, the entries before the write, what was kept of it, and
the entries after it. -/
theorem run_fst (a : Allocator) {l : Launch} (w : World) {kept : Bytes}
    {before after : List Log.Entry}
    (h : (l.execute a w.files).effects =
      before.map .logged ++ [.wrote (line l.args) kept] ++ after.map .logged) :
    (l.run a w).1 =
      (({ w with files := (l.env.opened w.files).1 }.complain
          (l.execute a w.files).diagnostics |>.record l.stdout (l.env.opened w.files).2 before
        ).play l.stdout (l.env.opened w.files).2 (.wrote (line l.args) kept)).record
          l.stdout (l.env.opened w.files).2 after := by
  have hrun : (l.run a w).1 = (l.execute a w.files).effects.foldl
      (fun v effect => v.play l.stdout (prepare l.env w.files).2.2.1.sink effect)
      ({ w with files := (prepare l.env w.files).2.1 }.complain
        (l.execute a w.files).diagnostics) := rfl
  rw [hrun, h, ← prepare_opened, List.foldl_append, List.foldl_append, World.foldl_play_logged,
    World.foldl_play_logged]
  rfl

/-- What a program logs, writes and leaves, in terms of its own build and buffer. -/
theorem accounted (a : Allocator) {l : Launch} (hv : l.variant = .plain ∨ l.variant = .aligned)
    (hout : l.stdout.Returns) (w : World) {kept : Bytes}
    (hkept : l.stdout.keep? (line l.args) = some kept) :
    Accounted a l w kept (l.entries a) (Run.failures l.stdout) := by
  have hexecute := execute_effects a hv hout w.files hkept
  have heffects := congrArg Prod.fst hexecute
  have hrun := run_fst a w heffects
  exact
    { returns := congrArg Prod.snd hexecute
      effects_eq := heffects
      files_eq := by
        rw [hrun, World.files_record, List.filter_append, List.flatMap_append,
          ← Files.receive_receive]
        exact congrArg (Files.receive · _ _) (World.files_record _ _ _ _)
      stderr_eq := by
        rw [hrun, World.stderr_record, List.filter_append, World.told_append, ← List.append_assoc]
        -- the write between the two lists of entries changes standard output only
        exact congrArg (· ++ _) (World.stderr_record _ _ _ _)
      stdout_eq := by
        rw [hrun, World.stdout_record]
        exact congrArg (· ++ kept ++ _) (World.stdout_record _ _ _ _) }

/-- **A program always ends normally, writes its line once, and logs what it has to where it has
to**, for every environment, all arguments and every writer that returns. -/
theorem run_accounted (a : Allocator) (v : Variant) (hv : v = .plain ∨ v = .aligned)
    (env : Environment) (args : List Bytes) (version date commit : Bytes) (stdout : Writer)
    (hout : stdout.Returns) (w : World) :
    ∃ addr kept, stdout.keep? (line args) = some kept ∧
      Accounted a ⟨v, env, args, .ofTexts version date commit, stdout⟩ w kept
        (due v version date commit addr) (Run.failures stdout) := by
  obtain ⟨kept, hkept⟩ := hout.exists_keep? (line args)
  refine ⟨(Run.buffer a .empty).address, kept, hkept, ?_⟩
  rw [← entries_eq_due a v env args version date commit stdout]
  exact accounted a hv hout w hkept

/-- The environment that asks for all entries in the file `run.log`. -/
def verbose : Environment := ⟨some (ascii "DEBUG"), some (ascii "run.log")⟩

/-- An aligned program on a full disk, of which only the version is known. -/
def unwritable : Launch :=
  ⟨.aligned, verbose, [ascii "./demo", ascii "x"], .ofTexts (ascii "v1") [] [],
    .failing 3 (ascii "disk full")⟩

/-- On a full disk the line is cut, and the failure is logged after all that is due. -/
theorem run_accounted_unwritable :
    unwritable.stdout.Returns ∧ (∀ e, verbose.delivers .fresh e = true) ∧
    ∃ addr, Accounted .spread unwritable .fresh (ascii "./d")
      (due .aligned (ascii "v1") [] [] addr)
      [⟨.error, ascii "demo run failed",
        [⟨ascii "error", .text (ascii "write output: disk full")⟩]⟩] := by
  have hreturns : unwritable.stdout.Returns := Or.inr (Or.inr ⟨3, ascii "disk full", rfl⟩)
  have hopened : (Sink.openAddress .fresh verbose.destination).isOk = true := by decide +kernel
  have hthreshold : verbose.threshold = .debug := by decide +kernel
  have hall : ∀ e, verbose.delivers .fresh e = true := by
    intro e
    have hle : Log.Level.debug ≤ e.level := Nat.zero_le _
    simp [Environment.delivers, hopened, hthreshold, hle]
  have hthree : unwritable.stdout.keep? (line unwritable.args) = some (ascii "./d") := by
    decide +kernel
  have hfailures : Run.failures unwritable.stdout = [⟨.error, ascii "demo run failed",
      [⟨ascii "error", .text (ascii "write output: disk full")⟩]⟩] := by
    decide +kernel
  obtain ⟨addr, kept, hkept, h⟩ := run_accounted .spread .aligned (Or.inr rfl) verbose
    unwritable.args (ascii "v1") [] [] unwritable.stdout hreturns .fresh
  have hkept' : kept = ascii "./d" := Option.some.inj (hkept.symm.trans hthree)
  rw [hkept', hfailures] at h
  exact ⟨hreturns, hall, addr, h⟩

end Launch

end ArgLine
