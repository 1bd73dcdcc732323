import ArgLine.Log.Logger
import ArgLine.Log.Sampler
import ArgLine.Sink

/-!
# ArgLine.Settings

Which log entries are wanted and where they go.

1. The defaults are entries from `warn` on, to standard error.
2. Two environment variables change them.  An unset or empty variable changes
   nothing; neither does one with a value that is refused, but that is reported.
3. A level has to be the name of a level.  The output must not be standard
   output by name, which is reserved for the program's line.
4. A logger that cannot be opened is reported and replaced by a silent one, so
   that logging never keeps the program from its work.
-/

namespace ArgLine

/-- The two variables, as far as they are set. -/
structure Environment where
  level : Option Bytes
  output : Option Bytes
  deriving DecidableEq, Repr

/-- What is reported about settings. -/
inductive Diagnostic where
  /-- A level that is none. -/
  | level (text : Bytes)
  /-- An output that is reserved. -/
  | reserved (output : Bytes)
  /-- An output that cannot be opened. -/
  | sink (output : Bytes) (error : SinkError)
  deriving DecidableEq, Repr

/-- The text of a report. -/
def Diagnostic.message : Diagnostic → Bytes
  | .level text => ascii "invalid DEMO_LOG_LEVEL env var: " ++ Log.Level.unrecognized text
  | .reserved output =>
    ascii "invalid DEMO_LOG_OUTPUT env var: " ++ Quoted.quote output ++
      ascii " is reserved for program output"
  | .sink output error =>
    ascii "build logger: open sink " ++ Quoted.quote output ++ ascii ": " ++ error.message

/-- A report as a line of its own. -/
def Diagnostic.line (d : Diagnostic) : Bytes :=
  if d.message.getLast? = some Bytes.newline then d.message else d.message ++ [Bytes.newline]

/-- A logger with the place its lines go to, and the entries counted so far. -/
structure Channel where
  logger : Log.Logger
  sink : Sink
  sampler : Log.Sampler
  deriving DecidableEq, Repr

/-- A channel that writes nothing. -/
def Channel.silent : Channel := ⟨.silent, .discard, .fresh⟩

/-- The name of a level and an output address. -/
structure Settings where
  level : Bytes
  output : Bytes
  deriving DecidableEq, Repr

namespace Settings

/-- What holds if no variable says otherwise. -/
def default : Settings := ⟨ascii "warn", ascii "stderr"⟩

/-- Whether an output is standard output by name. -/
def isReserved (output : Bytes) : Bool :=
  output = ascii "stdout" || output = ascii "/dev/stdout"

/-- Applies the level variable. -/
def readLevel (c : Settings) (value : Option Bytes) : Settings × List Diagnostic :=
  match value with
  | none | some [] => (c, [])
  | some text =>
    if (Log.Level.parse? text).isSome then ({ c with level := text }, []) else (c, [.level text])

/-- Applies the output variable. -/
def readOutput (c : Settings) (value : Option Bytes) : Settings × List Diagnostic :=
  match value with
  | none | some [] => (c, [])
  | some output =>
    if isReserved output then (c, [.reserved output]) else ({ c with output := output }, [])

/-- Applies the environment, the level first. -/
def read (c : Settings) (env : Environment) : Settings × List Diagnostic :=
  let (c, first) := c.readLevel env.level
  let (c, second) := c.readOutput env.output
  (c, first ++ second)

/-- The least level that is wanted: what the name says, `warn` if it names no level. -/
def threshold (c : Settings) : Log.Level := (Log.Level.parse? c.level).getD .warn

/-- Opens the channel of some settings. -/
def openChannel (c : Settings) (files : Files) : Files × Channel × List Diagnostic :=
  match Sink.openAddress files c.output with
  | .ok (opened, sink) => (opened, ⟨.atLeast c.threshold, sink, .fresh⟩, [])
  | .error e => (files, .silent, [.sink c.output e])

end Settings

end ArgLine
