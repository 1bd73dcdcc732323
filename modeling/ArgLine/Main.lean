import ArgLine.Program

/-!
# ArgLine.Main

The command line.  The name under which the program was started is its first
argument, and a name that ends in `-aligned` asks for the aligned variant.

What is decided is decided by `Launch`; here the environment is read, the log is
opened, and the effects are carried out in order.
-/

namespace ArgLine

namespace CommandLine

/-- The bytes of a string. -/
def bytesOf (s : String) : Bytes := s.toUTF8.toList

/-- Writes bytes to a stream at once. -/
def put (stream : IO.FS.Stream) (text : Bytes) : IO Unit := do
  stream.write text.toByteArray
  stream.flush

/-- The variant that a name asks for. -/
def variantOf (name : Bytes) : Variant :=
  if (ascii "-aligned").isSuffixOf name then .aligned else .plain

/-- Reads the two variables. -/
def environment : IO Environment := do
  return ⟨(← IO.getEnv "DEMO_LOG_LEVEL").map bytesOf, (← IO.getEnv "DEMO_LOG_OUTPUT").map bytesOf⟩

/-- Why the system did not open a file. -/
def fileError : IO.Error → FileError
  | .noFileOrDirectory .. => .missing
  | .inappropriateType _ code _ => if code = 20 then .notDirectory else .isDirectory
  | .invalidArgument _ code _ => if code = 36 then .nameTooLong else .invalidName
  | _ => .missing

/-- Opens the path that an address names. -/
def openPath (path : Bytes) : IO (Except SinkError IO.FS.Stream) := do
  if path = ascii "stdout" then return .ok (← IO.getStdout)
  else if path = ascii "stderr" then return .ok (← IO.getStderr)
  else match String.fromUTF8? path.toByteArray with
    | none => return .error (.file path .invalidName)
    | some name =>
      try
        return .ok (IO.FS.Stream.ofHandle (← IO.FS.Handle.mk name .append))
      catch e => return .error (.file path (fileError e))

/-- Opens the log of some settings.  Without a log the logger is silent. -/
def openLog (settings : Settings) : IO (Log.Logger × IO.FS.Stream) := do
  let opened ← match Sink.pathOf settings.output with
    | .ok path => openPath path
    | .error e => pure (.error e)
  match opened with
  | .ok stream => return (.atLeast settings.threshold, stream)
  | .error e =>
    put (← IO.getStderr) (Diagnostic.sink settings.output e).line
    return (.silent, ← IO.getStderr)

/-- Carries out effects in order.  If the line cannot be written, `onFailure` tells what follows. -/
def carryOut (log : IO.FS.Stream) (onFailure : Bytes → List Effect) : List Effect → IO Unit
  | [] => return
  | .logged e :: rest => do
    put log e.line
    carryOut log onFailure rest
  | .wrote text _ :: rest => do
    try
      put (← IO.getStdout) text
      carryOut log onFailure rest
    catch e =>
      for effect in onFailure (bytesOf (toString e)) do
        if let .logged entry := effect then put log entry.line

/-- What a launch does after a write that failed with a text. -/
def afterFailure (l : Launch) (logger : Log.Logger) (text : Bytes) : List Effect :=
  ({ l with stdout := .failing 0 text }.effects .spread logger).1.dropWhile (fun
    | .logged _ => true
    | .wrote _ _ => false)

end CommandLine

end ArgLine

open ArgLine in
/-- Runs the program under the name it was started by. -/
def main (args : List String) : IO Unit := do
  let name := CommandLine.bytesOf (toString (← IO.appPath))
  let l : Launch :=
    { variant := CommandLine.variantOf name
      env := ← CommandLine.environment
      args := name :: args.map CommandLine.bytesOf
      build := .ofTexts [] [] []
      stdout := .accepting }
  let (settings, diagnostics) := Settings.default.read l.env
  for d in diagnostics do CommandLine.put (← IO.getStderr) d.line
  let (logger, log) ← CommandLine.openLog settings
  CommandLine.carryOut log (CommandLine.afterFailure l logger) (l.effects .spread logger).1
