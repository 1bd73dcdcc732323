import ArgLine.Proofs.Execution
import ArgLine.Proofs.Url.Spelling

/-!
# ArgLine.Proofs.Stdout

What reaches standard output while programs run.

The line always does.  Log lines are kept away from it by name: an output that is called `stdout` or
`/dev/stdout` is refused.  But the name is compared as it is written, so two kinds of address pass
and are standard output all the same:

1. a URL that spells the word `stdout`, such as `stdout?`;
2. a path that leads to a place which is standard output, such as `/dev/./stdout`.

`Environment.Leaks` says which environments do that.  It depends on the tree of files, but not on
anything that a run changes there (`Alike.leaks_iff`), so the tree before the first of any number of
runs settles it.  `stdout_run` gives the bytes of a run in both cases, and `stdout_runAll` those of
any number of runs.
-/

namespace ArgLine

theorem isWord_stdout : Url.IsWord (ascii "stdout") := ⟨by decide, List.all_eq_true.1 rfl⟩

theorem toOption_eq_some_iff {ε α : Type} {r : Except ε α} {x : α} :
    r.toOption = some x ↔ r = .ok x := by
  cases r <;> simp [Except.toOption]

instance (address : Bytes) : Decidable (Url.Writes (ascii "stdout") address) :=
  decidable_of_iff ((Sink.pathOf address).toOption = some (ascii "stdout"))
    (toOption_eq_some_iff.trans (Url.pathOf_eq_ok_iff isWord_stdout))

/-! ## addresses of standard output -/

namespace Files

/-- An address is standard output: it spells the word, or its path leads there. -/
def NamesStdout (f : Files) (address : Bytes) : Prop :=
  Url.Writes (ascii "stdout") address ∨
    ∃ path, Sink.pathOf address = .ok path ∧ path ≠ ascii "stderr" ∧ f.Leads path .stdout

instance (f : Files) (path : Bytes) : Decidable (f.Leads path .stdout) :=
  decidable_of_iff (∃ p ∈ (f.locate path).toOption, f.node? p = some .stdout) (by
    simp [leads_iff_locate, toOption_eq_some_iff])

instance (f : Files) (address : Bytes) : Decidable (f.NamesStdout address) :=
  decidable_of_iff (Url.Writes (ascii "stdout") address ∨
      ∃ path ∈ (Sink.pathOf address).toOption, path ≠ ascii "stderr" ∧ f.Leads path .stdout) (by
    simp [NamesStdout, toOption_eq_some_iff])

/-- Standard output is opened by the addresses that name it, and by no others. -/
theorem openAddress_stdout_iff {f : Files} {address : Bytes} :
    (∃ g name, Sink.openAddress f address = .ok (g, .stdout name)) ↔ f.NamesStdout address := by
  rw [NamesStdout, ← Url.pathOf_eq_ok_iff isWord_stdout]
  cases hp : Sink.pathOf address with
  | error e => simp [Sink.openAddress, hp, bind, Except.bind]
  | ok path => simp [Sink.openAddress, hp, bind, Except.bind, openPath_stdout_iff]

/-- Trees that are alike have the same addresses of standard output. -/
theorem Alike.namesStdout_iff {f g : Files} (h : Alike f g) {address : Bytes} :
    f.NamesStdout address ↔ g.NamesStdout address := by
  simp only [NamesStdout, h.leads_iff (n := .stdout) (by simp)]

end Files

/-! ## environments that leak -/

namespace Environment

/-- The level variable asks for entries of every level. -/
def AsksForAll (env : Environment) : Prop :=
  ∃ text ∈ env.level, Log.Level.parse? text = some .debug

/-- The output variable names standard output, but not in one of the two ways that are refused. -/
def NamesStdout (env : Environment) (files : Files) : Prop :=
  ∃ output ∈ env.output, output ≠ ascii "stdout" ∧ output ≠ ascii "/dev/stdout" ∧
    files.NamesStdout output

/-- Log lines reach standard output. -/
def Leaks (env : Environment) (files : Files) : Prop := env.AsksForAll ∧ env.NamesStdout files

instance (env : Environment) : Decidable env.AsksForAll :=
  inferInstanceAs (Decidable (∃ text ∈ env.level, Log.Level.parse? text = some .debug))

instance (env : Environment) (files : Files) : Decidable (env.NamesStdout files) :=
  inferInstanceAs (Decidable (∃ output ∈ env.output, output ≠ ascii "stdout" ∧
    output ≠ ascii "/dev/stdout" ∧ files.NamesStdout output))

instance (env : Environment) (files : Files) : Decidable (env.Leaks files) :=
  inferInstanceAs (Decidable (_ ∧ _))

/-- All entries are wanted only if the level variable says so. -/
theorem threshold_eq_debug_iff {env : Environment} : env.threshold = .debug ↔ env.AsksForAll := by
  unfold threshold AsksForAll
  cases env.level with
  | none => simp
  | some text =>
    cases text with
    | nil =>
      have hempty : Log.Level.parse? [] ≠ some .debug := by decide
      simp [hempty]
    | cons b rest => cases hparse : Log.Level.parse? (b :: rest) <;> simp [hparse]

/-- The address of standard error is not one of standard output, whatever stands in the tree. -/
theorem not_namesStdout_stderr (files : Files) : ¬ files.NamesStdout (ascii "stderr") := by
  have hspelled : ¬ Url.Writes (ascii "stdout") (ascii "stderr") := by decide +kernel
  have hpath : Sink.pathOf (ascii "stderr") = .ok (ascii "stderr") := by decide +kernel
  simp [Files.NamesStdout, hspelled, hpath]

theorem not_namesStdout_nil (files : Files) : ¬ files.NamesStdout [] := by
  have hspelled : ¬ Url.Writes (ascii "stdout") [] := by decide +kernel
  have hpath : Sink.pathOf [] = .ok [] := by decide +kernel
  have hplace : files.locate [] = .error .missing := rfl
  simp [Files.NamesStdout, hspelled, hpath, Files.leads_iff_locate, hplace]

/-- The destination is standard output only if the variable names it and is not refused. -/
theorem namesStdout_destination_iff {env : Environment} {files : Files} :
    files.NamesStdout env.destination ↔ env.NamesStdout files := by
  unfold destination NamesStdout
  cases env.output with
  | none => simp [not_namesStdout_stderr]
  | some output =>
    simp only [Option.getD_some, Option.mem_def, Option.some.injEq, exists_eq_left']
    split
    · next hrefused =>
      refine iff_of_false (not_namesStdout_stderr files) ?_
      rintro ⟨hword, hdevice, hnames⟩
      simp only [List.mem_cons, List.not_mem_nil, or_false] at hrefused
      rcases hrefused with rfl | h | h
      · exact not_namesStdout_nil files hnames
      · exact hword h
      · exact hdevice h
    · next hrefused =>
      simp only [List.mem_cons, List.not_mem_nil, or_false, not_or] at hrefused
      simp [hrefused]

/-- What is opened is standard output exactly if the environment names it. -/
theorem opened_stdout_iff {env : Environment} {files : Files} :
    (∃ name, (env.opened files).2 = .stdout name) ↔ env.NamesStdout files := by
  rw [← namesStdout_destination_iff, ← Files.openAddress_stdout_iff]
  unfold opened
  cases h : Sink.openAddress files env.destination with
  | error e => simp [Except.toOption]
  | ok result => simp [Except.toOption, Prod.ext_iff]

end Environment

/-- Files have no say in whether an environment leaks: only directories, links and devices have. -/
theorem Files.Alike.leaks_iff {f g : Files} (h : Alike f g) {env : Environment} :
    env.Leaks f ↔ env.Leaks g := by
  simp only [Environment.Leaks, Environment.NamesStdout, h.namesStdout_iff]

/-! ## the bytes -/

namespace Launch

/-- All that a program has to log before its line is for debugging. -/
theorem level_of_mem_entries {a : Allocator} {l : Launch} {e : Log.Entry}
    (h : e ∈ l.entries a) : e.level = .debug := by
  unfold entries Run.due at h
  split at h <;> simp only [List.cons_append, List.nil_append, List.mem_cons, List.not_mem_nil,
    or_false] at h
  · rcases h with rfl | rfl | rfl <;> rfl
  · rcases h with rfl | rfl <;> rfl

/-- The log lines that reach standard output. -/
def leaked (a : Allocator) (files : Files) (l : Launch) : Bytes :=
  if l.env.Leaks files then (l.entries a).flatMap Log.Entry.line else []

/-- All that a program has to log before its line goes to standard output, or nothing of it. -/
theorem shown_entries (a : Allocator) (l : Launch) (files : Files) :
    World.shown .accepting (l.env.opened files).2
      ((l.entries a).filter (l.env.delivers files)) = l.leaked a files := by
  unfold leaked
  by_cases hnames : l.env.NamesStdout files
  · obtain ⟨name, hsink⟩ := Environment.opened_stdout_iff.2 hnames
    have hopened : (Sink.openAddress files l.env.destination).isOk = true := by
      cases h : Sink.openAddress files l.env.destination with
      | ok result => rfl
      | error e => simp [Environment.opened, h, Except.toOption] at hsink
    have hdelivers : ∀ e ∈ l.entries a,
        l.env.delivers files e = decide (l.env.threshold = .debug) := by
      intro e he
      rw [Environment.delivers, hopened, level_of_mem_entries he]
      cases l.env.threshold <;> rfl
    rw [List.filter_congr hdelivers, hsink]
    by_cases hall : l.env.AsksForAll
    · rw [if_pos ⟨hall, hnames⟩, Environment.threshold_eq_debug_iff.2 hall]
      simp [World.shown, Writer.keep?]
    · rw [if_neg fun h => hall h.1, decide_eq_false (mt Environment.threshold_eq_debug_iff.1 hall)]
      simp [World.shown]
  · rw [if_neg fun h => hnames h.2]
    cases hsink : (l.env.opened files).2 with
    | stdout name => exact absurd (Environment.opened_stdout_iff.1 ⟨name, hsink⟩) hnames
    | _ => rfl

/-- **The bytes of one run**: the log lines that leak, then the line. -/
theorem stdout_run (a : Allocator) {l : Launch} (hv : l.variant = .plain ∨ l.variant = .aligned)
    (hout : l.stdout = .accepting) (w : World) :
    (l.run a w).1.stdout = w.stdout ++ l.leaked a w.files ++ line l.args := by
  have hkept : l.stdout.keep? (line l.args) = some (line l.args) := by rw [hout]; rfl
  have hstdout := (accounted a hv (Or.inl hout) w hkept).stdout_eq
  have hfailures : Run.failures .accepting = [] := rfl
  rw [hout, hfailures, shown_entries, List.filter_nil, World.shown_nil, List.append_nil] at hstdout
  exact hstdout

/-- A run changes files only. -/
theorem alike_run (a : Allocator) {l : Launch} (hv : l.variant = .plain ∨ l.variant = .aligned)
    (hout : l.stdout.Returns) (w : World) : w.files.Alike (l.run a w).1.files := by
  obtain ⟨kept, hkept⟩ := hout.exists_keep? (line l.args)
  have hopened : w.files.Alike (l.env.opened w.files).1 := by
    unfold Environment.opened
    cases h : Sink.openAddress w.files l.env.destination with
    | error e => exact .refl w.files
    | ok result => exact Files.alike_openAddress h
  rw [(accounted a hv hout w hkept).files_eq]
  exact hopened.trans (.receive _ _ _)

def runAll (a : Allocator) (w : World) (ls : List Launch) : World :=
  ls.foldl (fun w l => (l.run a w).1) w

/-- The two programs, with a standard output that takes what is written. -/
def Writable (l : Launch) : Prop :=
  (l.variant = .plain ∨ l.variant = .aligned) ∧ l.stdout = .accepting

/-- What the runs after the first leak is settled before it, since it changes files only. -/
theorem stdout_runAll (a : Allocator) (w : World) {ls : List Launch}
    (h : ∀ l ∈ ls, l.Writable) :
    (runAll a w ls).stdout =
      w.stdout ++ ls.flatMap fun l => l.leaked a w.files ++ line l.args := by
  induction ls generalizing w with
  | nil => simp [runAll]
  | cons l ls ih =>
    have hl := h l List.mem_cons_self
    have hrest := ih (l.run a w).1 fun l' hl' => h l' (List.mem_cons_of_mem _ hl')
    have halike := alike_run a hl.1 (Or.inl hl.2) w
    have hleaked (l' : Launch) : l'.leaked a (l.run a w).1.files = l'.leaked a w.files := by
      simp only [leaked, halike.leaks_iff]
    have hcons : runAll a w (l :: ls) = runAll a (l.run a w).1 ls := rfl
    rw [hcons, hrest, stdout_run a hl.1 hl.2, List.flatMap_cons]
    simp only [hleaked, List.append_assoc]

/-- A program that leaks adds at least one byte. -/
theorem leaked_eq_nil_iff (a : Allocator) (files : Files) (l : Launch) :
    l.leaked a files = [] ↔ ¬ l.env.Leaks files := by
  have hne : (l.entries a).flatMap Log.Entry.line ≠ [] := by
    rw [entries, List.flatMap_cons]
    simp [Log.Entry.line]
  unfold leaked
  split
  · next hleaks => simp [hne, hleaks]
  · next hleaks => simp [hleaks]

theorem length_flatMap_append {α : Type} (extra own : α → Bytes) (xs : List α) :
    (xs.flatMap fun x => extra x ++ own x).length =
      (xs.flatMap extra).length + (xs.flatMap own).length := by
  induction xs with
  | nil => rfl
  | cons x xs ih =>
    simp only [List.flatMap_cons, List.length_append, ih]
    omega

/-- Bytes that were added in between show, whatever they are. -/
theorem flatMap_append_eq_iff {α : Type} {extra own : α → Bytes} {xs : List α} :
    (xs.flatMap fun x => extra x ++ own x) = xs.flatMap own ↔ ∀ x ∈ xs, extra x = [] := by
  constructor
  · intro heq
    have hlen := congrArg List.length heq
    rw [length_flatMap_append] at hlen
    have hnone : xs.flatMap extra = [] := List.eq_nil_of_length_eq_zero (by omega)
    exact List.flatMap_eq_nil_iff.1 hnone
  · intro h
    exact List.flatMap_congr fun x hx => by rw [h x hx, List.nil_append]

/-- **What reaches standard output in any number of runs**: the line of each run, and before it the
log lines of the runs whose environment leaks, in the tree of files as it was before the first.
Only if none does, there is nothing but lines. -/
theorem stdout_runAll_exact (a : Allocator) (w : World) (ls : List Launch)
    (h : ∀ l ∈ ls, l.Writable) :
    (runAll a w ls).stdout =
      w.stdout ++ (ls.flatMap fun l => l.leaked a w.files ++ line l.args) ∧
    ((runAll a w ls).stdout = w.stdout ++ (ls.flatMap fun l => line l.args) ↔
      ∀ l ∈ ls, ¬ l.env.Leaks w.files) := by
  have hbytes := stdout_runAll a w h
  refine ⟨hbytes, ?_⟩
  rw [hbytes, List.append_cancel_left_eq, flatMap_append_eq_iff]
  simp only [leaked_eq_nil_iff]

/-- A plain program that is asked for all entries, with some output. -/
def asked (output : Bytes) : Launch :=
  ⟨.plain, ⟨some (ascii "debug"), some output⟩, [ascii "./demo"], .ofTexts [] [] [], .accepting⟩

/-- One that spells the word, and one that takes a detour to the device. -/
def leaking : List Launch := [asked (ascii "stdout?"), asked (ascii "/dev/./stdout")]

/-- An aligned program that is asked to log to standard output by name, which is refused. -/
def refused : Launch :=
  ⟨.aligned, ⟨some (ascii "Debug"), some (ascii "stdout")⟩, [ascii "./demo", ascii "x"],
    .ofTexts (ascii "v1") [] [], .accepting⟩

example : ∀ output ∈ ["std%6fut#", "//dev/stdout", "/dev/fd/1", "/proc/self/fd/1",
    "file:///dev/stdout", "../../dev/stdout", "/dev/fd/../fd/1"].map ascii,
    (asked output).env.Leaks .fresh := by decide +kernel

example : ∀ output ∈ ["stdout", "/dev/stdout", "stderr", "run.log", "/dev/stderr", "/dev/null",
    "/dev/stdout/", "/dev/fd/../stdout"].map ascii,
    ¬ (asked output).env.Leaks .fresh := by decide +kernel

/-- Two programs that leak and one that is refused, one after the other. -/
theorem stdout_runAll_leaking_refused :
    (∀ l ∈ leaking ++ [refused], l.Writable) ∧ (∀ l ∈ leaking, l.env.Leaks .fresh) ∧
    ¬ refused.env.Leaks .fresh ∧
    (runAll .spread .fresh (leaking ++ [refused])).stdout =
      (leaking.flatMap fun l => (l.entries .spread).flatMap Log.Entry.line ++ line l.args) ++
        ascii "./demo: 2\n" := by
  have hwritable : ∀ l ∈ leaking ++ [refused], l.Writable := by
    intro l hl
    simp only [leaking, List.cons_append, List.nil_append, List.mem_cons, List.not_mem_nil,
      or_false] at hl
    rcases hl with rfl | rfl | rfl
    · exact ⟨Or.inl rfl, rfl⟩
    · exact ⟨Or.inl rfl, rfl⟩
    · exact ⟨Or.inr rfl, rfl⟩
  have hleaks : ∀ l ∈ leaking, l.env.Leaks .fresh := by decide +kernel
  have hrefused : ¬ refused.env.Leaks .fresh := by decide +kernel
  refine ⟨hwritable, hleaks, hrefused, ?_⟩
  have hline : line refused.args = ascii "./demo: 2\n" := by decide +kernel
  have hlines : (leaking.flatMap fun l => l.leaked .spread .fresh ++ line l.args) =
      leaking.flatMap fun l => (l.entries .spread).flatMap Log.Entry.line ++ line l.args :=
    List.flatMap_congr fun l hl => by rw [leaked, if_pos (hleaks l hl)]
  rw [(stdout_runAll_exact .spread .fresh _ hwritable).1, List.flatMap_append,
    List.flatMap_singleton]
  change [] ++ ((leaking.flatMap fun l => l.leaked .spread .fresh ++ line l.args) ++
    (refused.leaked .spread .fresh ++ line refused.args)) = _
  rw [hlines, (leaked_eq_nil_iff .spread .fresh refused).2 hrefused, hline]
  rfl

/-- Standard output does not always carry the line alone. -/
theorem not_stdout_line_only :
    ¬ ∀ (a : Allocator) (l : Launch) (w : World), l.Writable →
      (l.run a w).1.stdout = w.stdout ++ line l.args := by
  intro h
  have hline := h .spread (asked (ascii "stdout?")) .fresh ⟨Or.inl rfl, rfl⟩
  rw [stdout_run .spread (Or.inl rfl) rfl, List.append_cancel_right_eq] at hline
  have hnone : (asked (ascii "stdout?")).leaked .spread World.fresh.files = [] := by
    simpa using hline
  exact (leaked_eq_nil_iff .spread _ _).1 hnone (by decide +kernel)

end Launch

end ArgLine
