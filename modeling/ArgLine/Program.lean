import ArgLine.Build
import ArgLine.World

/-!
# ArgLine.Program

A whole program: read the environment, open the log, log the build, run, and
write the line to standard output.  Nothing that goes wrong with logging or
writing ends it otherwise than normally.
-/

namespace ArgLine

/-- What a program is started with. -/
structure Launch where
  variant : Variant
  env : Environment
  args : List Bytes
  build : Build
  /-- What standard output does with a write. -/
  stdout : Writer
  deriving DecidableEq, Repr

/-- What a program does. -/
structure Execution where
  settings : Settings
  channel : Channel
  /-- The files once the log is open. -/
  files : Files
  diagnostics : List Diagnostic
  effects : List Effect
  fault : Option Fault
  deriving DecidableEq, Repr

namespace Launch

/-- The settings of a program, its open channel, and what is reported about them. -/
def prepare (env : Environment) (files : Files) : Settings × Files × Channel × List Diagnostic :=
  let (settings, first) := Settings.default.read env
  let (opened, channel, second) := settings.openChannel files
  (settings, opened, channel, first ++ second)

/-- What a program does once its logger is chosen: it logs the build, then runs. -/
def effects (a : Allocator) (l : Launch) (logger : Log.Logger) : List Effect × Option Fault :=
  match logger.log l.build.entry with
  | (entries, some fault) => (entries.map .logged, some fault)
  | (entries, none) =>
    let (_, effects, fault) := Run.execute a .empty logger l.stdout l.args l.variant
    (entries.map .logged ++ effects, fault)

/-- Runs a program. -/
def execute (a : Allocator) (l : Launch) (files : Files) : Execution :=
  let (settings, opened, channel, diagnostics) := prepare l.env files
  let (effects, fault) := l.effects a channel.logger
  ⟨settings, channel, opened, diagnostics, effects, fault⟩

/-- What can be seen of a program that was run. -/
def run (a : Allocator) (l : Launch) (w : World) : World × Option Fault :=
  let e := l.execute a w.files
  (e.effects.foldl (fun w effect => w.play l.stdout e.channel.sink effect)
    ({ w with files := e.files }.complain e.diagnostics), e.fault)

end Launch

end ArgLine
