import ArgLine.Program

/-!
# ArgLine.Session

Runs of operations on files, settings, a current channel and whole
programs, and what each operation answers: what it gives back, how it ended,
what it wrote to the two streams, and which files are new or grew.
-/

namespace ArgLine

/-- Where a session stands. -/
structure Session where
  files : Files
  /-- The channel that entries are logged to. -/
  channel : Channel
  deriving DecidableEq, Repr

namespace Session

/-- An empty working directory and a silent channel. -/
def fresh : Session := ⟨.fresh, .silent⟩

/-- One operation of a session. -/
inductive Step where
  /-- Writes a file. -/
  | file (path text : Bytes)
  | makeDirectory (path : Bytes)
  /-- Makes settings from the defaults and opens its channel. -/
  | start (env : Environment)
  /-- Applies an environment to settings. -/
  | applyEnvironment (settings : Settings) (env : Environment)
  /-- Opens the channel of some settings. -/
  | openChannel (settings : Settings)
  | log (entry : Log.Entry)
  | build (build : Build)
  /-- One run of a variant. -/
  | run (variant : Variant) (args : List Bytes) (writer : Writer)
  /-- The run of a whole command. -/
  | command (variant : Variant) (args : List Bytes) (writer : Writer)
  /-- A whole program. -/
  | program (launch : Launch)
  deriving DecidableEq, Repr

/-- What an operation gives back. -/
inductive Result where
  | nothing
  | applied (settings : Settings) (least : Option Log.Level)
  | read (settings : Settings)
  | opened (least : Option Log.Level)
  | ran (output : Bytes) (writes : Nat)
  deriving DecidableEq, Repr

/-- What an operation leaves. -/
structure Report where
  result : Result
  outcome : Outcome RunError
  world : World
  channel : Channel
  deriving DecidableEq, Repr

/-- Offers entries to a channel, and sends those that pass to its sink. -/
def record (w : World) (channel : Channel) (entries : List Log.Entry) : World × Channel :=
  let (sampler, passed) := channel.sampler.sift entries
  (w.record .accepting channel.sink passed, { channel with sampler := sampler })

/-- Does one operation, on streams to which nothing was written yet. -/
def perform (a : Allocator) (s : Session) (step : Step) : Report :=
  let w : World := ⟨s.files, [], []⟩
  match step with
  | .file path text =>
    ⟨.nothing, .done, { w with files := (s.files.write path text).toOption.getD s.files },
      s.channel⟩
  | .makeDirectory path =>
    ⟨.nothing, .done, { w with files := s.files.makeDirectory path },
      s.channel⟩
  | .start env =>
    let (settings, files, channel, diagnostics) := Launch.prepare env s.files
    ⟨.applied settings channel.logger.threshold?, .done,
      { w with files := files }.complain diagnostics, channel⟩
  | .applyEnvironment settings env =>
    let (settings, diagnostics) := settings.read env
    ⟨.read settings, .done, w.complain diagnostics, s.channel⟩
  | .openChannel settings =>
    let (files, channel, diagnostics) := settings.openChannel s.files
    ⟨.opened channel.logger.threshold?, .done,
      { w with files := files }.complain diagnostics, channel⟩
  | .log entry =>
    let (entries, fault) := s.channel.logger.log entry
    let (after, channel) := record w s.channel entries
    ⟨.nothing, .ofFault? fault, after, channel⟩
  | .build b =>
    let (entries, fault) := s.channel.logger.log b.entry
    let (after, channel) := record w s.channel entries
    ⟨.nothing, .ofFault? fault, after, channel⟩
  | .run variant args writer =>
    let r := Run.perform a .empty s.channel.logger writer args variant
    let (after, channel) := record w s.channel (Effect.entries r.effects)
    ⟨.ran (Effect.output r.effects) (Effect.writes r.effects), r.outcome, after, channel⟩
  | .command variant args writer =>
    let (_, effects, fault) := Run.execute a .empty s.channel.logger writer args variant
    let (after, channel) := record w s.channel (Effect.entries effects)
    ⟨.ran (Effect.output effects) (Effect.writes effects), .ofFault? fault, after, channel⟩
  | .program launch =>
    let (after, fault) := launch.run a w
    ⟨.nothing, .ofFault? fault, after, s.channel⟩

/-- What an operation answers. -/
structure Answer where
  result : Result
  outcome : Outcome RunError
  stdout : Bytes
  stderr : Bytes
  /-- The files that are new or grew, with what they gained. -/
  grown : List (Bytes × Bytes)
  deriving DecidableEq, Repr

/-- Runs one operation. -/
def step (a : Allocator) (s : Session) (op : Step) : Session × Answer :=
  let r := s.perform a op
  (⟨r.world.files, r.channel⟩,
    ⟨r.result, r.outcome, r.world.stdout, r.world.stderr, s.files.grown r.world.files⟩)

/-- Runs operations one after the other, and gives where they lead and their answers. -/
def runSteps (a : Allocator) (s : Session) : List Step → Session × List Answer
  | [] => (s, [])
  | op :: rest =>
    let (next, answer) := s.step a op
    let (last, answers) := runSteps a next rest
    (last, answer :: answers)

end Session

end ArgLine
