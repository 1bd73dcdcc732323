import ArgLine.Files
import ArgLine.Url.Basic

/-!
# ArgLine.Sink

Where log lines go, as an output address names it.

1. An address that starts with `/` is a path.
2. Any other is a URL.  Without a scheme it is a file URL; only file URLs can be
   opened, and they have no user, fragment, query or port, and no host but
   `localhost`.
3. The decoded path `stdout` is standard output and `stderr` standard error.
   Any other path is opened for appending, and is one of the two streams if the
   place that it names is.
-/

namespace ArgLine

/-- Where lines go. -/
inductive Sink where
  /-- Standard output, and the name under which it is open. -/
  | stdout (name : Bytes)
  | stderr
  | file (place : Path)
  /-- Nowhere. -/
  | discard
  deriving DecidableEq, Repr

/-- What a file URL must not have. -/
inductive Excess where
  | user | fragment | query | port | host
  deriving DecidableEq, Repr

/-- Why an address cannot be opened. -/
inductive SinkError where
  /-- The address is no URL: the address, the part that was refused, and why. -/
  | url (address part : Bytes) (error : UrlError)
  | scheme (scheme : Bytes)
  | excess (what : Excess) (url : Url)
  | file (path : Bytes) (error : FileError)
  deriving DecidableEq, Repr

/-- What is wrong with having too much. -/
def Excess.message : Excess → Bytes
  | .user => ascii "user and password not allowed with file URLs"
  | .fragment => ascii "fragments not allowed with file URLs"
  | .query => ascii "query parameters not allowed with file URLs"
  | .port => ascii "ports not allowed with file URLs"
  | .host => ascii "file URLs must leave host empty or use localhost"

/-- The text of a refusal. -/
def SinkError.message : SinkError → Bytes
  | .url address part error =>
    ascii "can't parse " ++ Quoted.quote address ++ ascii " as a URL: parse " ++
      Quoted.quote part ++ ascii ": " ++ error.message
  | .scheme name => ascii "no sink found for scheme " ++ Quoted.quote name
  | .excess what u => what.message ++ ascii ": got " ++ u.text
  | .file path error => ascii "open " ++ path ++ ascii ": " ++ error.message

namespace Sink

/-- The scheme of files. -/
def fileScheme : Bytes := ascii "file"

/-- A URL with the scheme of files in place of none. -/
def orFile (u : Url) : Url := if u.scheme = [] then { u with scheme := fileScheme } else u

/-- The first thing that a file URL has too much of. -/
def excess? (u : Url) : Option Excess :=
  if u.user ≠ none then some .user
  else if u.fragment ≠ [] then some .fragment
  else if u.query.getD [] ≠ [] then some .query
  else if u.port ≠ [] then some .port
  else if u.hostName ≠ [] ∧ u.hostName ≠ ascii "localhost" then some .host
  else none

/-- The path that an address names. -/
def pathOf (address : Bytes) : Except SinkError Bytes :=
  if address.head? = some 47 then .ok address
  else match Url.parse address with
    | .error (part, e) => .error (.url address part e)
    | .ok u =>
      if (orFile u).scheme ≠ fileScheme then .error (.scheme (orFile u).scheme)
      else match excess? (orFile u) with
        | some what => .error (.excess what (orFile u))
        | none => .ok u.path

/-- The name of standard output, unless it is opened by a path. -/
def stdoutName : Bytes := ascii "/dev/stdout"

/-- What a place that was opened by a path is for lines. -/
def atPlace (files : Files) (path : Bytes) (place : Path) : Sink :=
  match files.node? place with
  | some .stdout => .stdout path
  | some .stderr => .stderr
  | _ => .file place

/-- Opens a path. -/
def openPath (files : Files) (path : Bytes) : Except SinkError (Files × Sink) :=
  if path = ascii "stdout" then .ok (files, .stdout stdoutName)
  else if path = ascii "stderr" then .ok (files, .stderr)
  else match files.openAppend path with
    | .ok (opened, place) => .ok (opened, atPlace opened path place)
    | .error e => .error (.file path e)

/-- Opens an address. -/
def openAddress (files : Files) (address : Bytes) : Except SinkError (Files × Sink) := do
  openPath files (← pathOf address)

end Sink

end ArgLine
