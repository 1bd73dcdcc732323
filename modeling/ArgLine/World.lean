import ArgLine.Settings
import ArgLine.Run

/-!
# ArgLine.World

What can be seen of a program from outside: files, standard output and standard
error.  Effects and diagnostics are played onto it in order.  What is written to a
stream comes after all that was written to it before, whether through the stream or
through a path that leads to it.
-/

namespace ArgLine

/-- Files and the two standard streams, each with all that was written to it. -/
structure World where
  files : Files
  stdout : Bytes
  stderr : Bytes
  deriving DecidableEq, Repr

namespace World

/-- Nothing was written yet. -/
def fresh : World := ⟨.fresh, [], []⟩

/-- How the text of a failed write starts: with the name under which the file is open. -/
def failureStart (name : Bytes) : Bytes := ascii "write " ++ name ++ ascii ": "

/-- The text of a failed write to standard output, if it is open under another name. -/
def failureUnder (name text : Bytes) : Bytes :=
  if (failureStart Sink.stdoutName).isPrefixOf text then
    failureStart name ++ text.drop (failureStart Sink.stdoutName).length
  else text

/-- What the logger prints about a line that it could not write to standard output, without the
time. -/
def writeError (stdout : Writer) (name : Bytes) : Bytes :=
  match stdout.failure? with
  | some text => ascii "write error: " ++ failureUnder name text ++ [Bytes.newline]
  | none => []

/-- Sends a text to a sink.  Standard output keeps of it what its writer keeps, and if that fails,
standard error tells. -/
def send (w : World) (stdout : Writer) (sink : Sink) (text : Bytes) : World :=
  match sink with
  | .stdout name =>
    { w with
      stdout := w.stdout ++ (stdout.keep? text).getD []
      stderr := w.stderr ++ writeError stdout name }
  | .stderr => { w with stderr := w.stderr ++ text }
  | .file place => { w with files := w.files.append place text }
  | .discard => w

/-- Prints diagnostics on standard error. -/
def complain (w : World) (diagnostics : List Diagnostic) : World :=
  { w with stderr := w.stderr ++ diagnostics.flatMap Diagnostic.line }

/-- Sends the lines of some entries to a sink. -/
def record (w : World) (stdout : Writer) (sink : Sink) (entries : List Log.Entry) : World :=
  entries.foldl (fun w e => w.send stdout sink e.line) w

/-- Plays an effect: an entry goes to the sink as a line, what was kept of a write is on standard
output. -/
def play (w : World) (stdout : Writer) (sink : Sink) : Effect → World
  | .logged e => w.send stdout sink e.line
  | .wrote _ kept => { w with stdout := w.stdout ++ kept }

end World

end ArgLine
