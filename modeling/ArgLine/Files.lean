import ArgLine.Text.Bytes

/-!
# ArgLine.Files

A tree of files and directories, as far as opening a file for appending can
tell it.

1. A path starting with `/` is followed from the root, any other from the
   working directory.
2. Empty and `.` segments stay where they are, `..` goes up.
3. Every segment but the last has to be a directory that exists.
4. The last may be missing, and is then created as an empty file.  A path that
   ends in `/` names a directory, so it cannot be opened.
5. A link leads to its target, and `..` after it goes up from there.
6. A segment has at most 255 bytes and a path at most 4095; no path holds a
   zero byte.

The null device swallows what is appended to it.  Some places are the standard
streams of the program: what is appended there is written to the stream.  Which
places these are is part of the tree.
-/

namespace ArgLine

/-- Segments from the root down. -/
abbrev Path := List Bytes

/-- What stands at a path. -/
inductive Node where
  | file (content : Bytes)
  | directory
  /-- The null device. -/
  | null
  /-- The standard output of the program. -/
  | stdout
  /-- The standard error of the program. -/
  | stderr
  /-- A symbolic link, by the place that it leads to in the end. -/
  | link (target : Path)
  deriving DecidableEq, Repr

/-- Why a file cannot be opened. -/
inductive FileError where
  | missing
  | isDirectory
  | notDirectory
  | nameTooLong
  | invalidName
  deriving DecidableEq, Repr

/-- The text of a refusal. -/
def FileError.message : FileError → Bytes
  | .missing => ascii "no such file or directory"
  | .isDirectory => ascii "is a directory"
  | .notDirectory => ascii "not a directory"
  | .nameTooLong => ascii "file name too long"
  | .invalidName => ascii "invalid argument"

/-- Files and directories by path, and the directory that relative paths start from. -/
structure Files where
  nodes : List (Path × Node)
  working : Path
  deriving DecidableEq, Repr

namespace Files

/-- The path of the null device. -/
def nullPath : Path := [ascii "dev", ascii "null"]

/-- The directories that stand at the root before anything is made. -/
def rootDirectories : List Bytes :=
  ["bin", "dev", "etc", "home", "lib", "opt", "proc", "root", "run", "sbin", "srv", "sys", "tmp",
    "usr", "var"].map ascii

/-- The path of the working directory. -/
def workPath : Path := [ascii "tmp", ascii "work"]

/-- The directory of the open files of the program, by number. -/
def streamsPath : Path := [ascii "proc", ascii "self", ascii "fd"]

/-- The devices: the null device, and the standard streams by name and by number. -/
def devices : List (Path × Node) :=
  [(nullPath, .null), ([ascii "dev", ascii "stdout"], .stdout),
    ([ascii "dev", ascii "stderr"], .stderr), ([ascii "dev", ascii "fd"], .link streamsPath),
    ([ascii "proc", ascii "self"], .directory), (streamsPath, .directory),
    (streamsPath ++ [ascii "1"], .stdout), (streamsPath ++ [ascii "2"], .stderr)]

/-- An empty working directory, the directories at the root, and the devices. -/
def fresh : Files :=
  { nodes := ([], .directory) :: rootDirectories.map (fun name => ([name], .directory)) ++
      devices ++ [(workPath, .directory)]
    working := workPath }

/-- What stands at a path. -/
def node? (f : Files) (p : Path) : Option Node := f.nodes.lookup p

/-- Puts something at a path. -/
def place : List (Path × Node) → Path → Node → List (Path × Node)
  | [], p, n => [(p, n)]
  | (q, m) :: rest, p, n => if q = p then (q, n) :: rest else (q, m) :: place rest p n

/-- Puts something at a path. -/
def set (f : Files) (p : Path) (n : Node) : Files := { f with nodes := place f.nodes p n }

/-! ## Following a path -/

/-- The most bytes of a segment. -/
def maxSegment : Nat := 255

/-- The most bytes of a path. -/
def maxPath : Nat := 4095

/-- Where a place leads to: elsewhere if it is a link. -/
def enter (f : Files) (p : Path) : Path :=
  match f.node? p with
  | some (.link target) => target
  | _ => p

/-- Follows segments down from a place, each of which has to be there. -/
def walk (f : Files) (here : Path) : List Bytes → Except FileError Path
  | [] =>
    match f.node? here with
    | some .directory => .ok here
    | some _ => .error .notDirectory
    | none => .error .missing
  | segment :: rest =>
    match f.node? here with
    | some .directory =>
      if segment = [] ∨ segment = ascii "." then walk f here rest
      else if segment = ascii ".." then walk f here.dropLast rest
      else if segment.length > maxSegment then .error .nameTooLong
      else if (f.node? (f.enter (here ++ [segment]))).isNone then .error .missing
      else walk f (f.enter (here ++ [segment])) rest
    | some _ => .error .notDirectory
    | none => .error .missing

/-- Where a path starts from. -/
def start (f : Files) (path : Bytes) : Path :=
  if path.head? = some 47 then [] else f.working

/-- The segments of a path without the empty ones at its end. -/
def segments (path : Bytes) : List Bytes :=
  ((Bytes.split 47 path).reverse.dropWhile (· = [])).reverse

/-- The place that a path names for a file that may still be missing. -/
def locate (f : Files) (path : Bytes) : Except FileError Path :=
  if path.contains 0 then .error .invalidName
  else if path = [] then .error .missing
  else if path.length > maxPath then .error .nameTooLong
  else match (segments path).getLast? with
    | none => .error .isDirectory
    | some last => do
      let parent ← f.walk (f.start path) (segments path).dropLast
      if last = ascii "." ∨ last = ascii ".." then .error .isDirectory
      else if path.getLast? = some 47 then .error .isDirectory
      else if last.length > maxSegment then .error .nameTooLong
      else .ok (f.enter (parent ++ [last]))

/-! ## Files -/

/-- Opens a file for appending, and creates it if it is missing. -/
def openAppend (f : Files) (path : Bytes) : Except FileError (Files × Path) := do
  let place ← f.locate path
  match f.node? place with
  | some .directory => .error .isDirectory
  | some _ => .ok (f, place)
  | none => .ok (f.set place (.file []), place)

/-- Appends to a file that was opened. -/
def append (f : Files) (place : Path) (text : Bytes) : Files :=
  match f.node? place with
  | some (.file content) => f.set place (.file (content ++ text))
  | _ => f

/-- Writes a whole file in place of what was there. -/
def write (f : Files) (path text : Bytes) : Except FileError Files := do
  let (opened, place) ← f.openAppend path
  match opened.node? place with
  | some (.file _) => return opened.set place (.file text)
  | _ => return opened

/-- Follows segments down from a place and makes the directories that are missing, as far as
nothing else stands in the way. -/
def makeAll (f : Files) (here : Path) : List Bytes → Files
  | [] => f
  | segment :: rest =>
    if segment = [] ∨ segment = ascii "." then makeAll f here rest
    else if segment = ascii ".." then makeAll f here.dropLast rest
    else if segment.length > maxSegment then f
    else
      let next := f.enter (here ++ [segment])
      match f.node? next with
      | none => makeAll (f.set next .directory) next rest
      | some .directory => makeAll f next rest
      | some _ => f

/-- Makes a directory, and those on the way to it that are missing. -/
def makeDirectory (f : Files) (path : Bytes) : Files :=
  if path.contains 0 ∨ path.length > maxPath then f
  else f.makeAll (f.start path) (Bytes.split 47 path)

/-! ## What changed -/

/-- A path as seen from the working directory, for what lies below it. -/
def relative? (f : Files) (p : Path) : Option Bytes :=
  if f.working.isPrefixOf p ∧ p ≠ f.working then
    some (List.intercalate (ascii "/") (p.drop f.working.length))
  else none

/-- The bytes that a file has now beyond those it had, if it is new or grew. -/
def growth? (old : Files) (p : Path) (content : Bytes) : Option Bytes :=
  match old.node? p with
  | some (.file before) =>
    if before.length < content.length then some (content.drop before.length) else none
  | _ => some content

/-- The files below the working directory that are new or grew, with what they gained. -/
def grown (old new : Files) : List (Bytes × Bytes) :=
  new.nodes.filterMap fun
    | (p, .file content) =>
      match new.relative? p, growth? old p content with
      | some name, some gained => some (name, gained)
      | _, _ => none
    | _ => none

end Files

end ArgLine
