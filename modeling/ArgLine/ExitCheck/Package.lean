import ArgLine.ExitCheck.Callee
import ArgLine.Text.Literal

/-!
# ArgLine.ExitCheck.Package

The check of a whole package: the exit function must not be called in the body
of `main`.

1. Only a package named `main` is checked, and the checker's own command is not.
2. A file is skipped if it lies in a build cache, is generated, or imports the
   testing package however the import is spelled.
3. Of the declarations, only functions named `main` without a receiver and with
   a body count.
4. Every call of the exit function in such a body is reported, at any depth,
   outer calls before inner ones.
-/

namespace ArgLine

namespace ExitCheck

/-- A comment with its offset. -/
structure Comment where
  pos : Int
  text : Bytes
  deriving DecidableEq, Repr

/-- A declaration of a file. -/
inductive Decl where
  | func (name : Bytes) (hasReceiver : Bool) (body : Option (List Stmt))
  /-- Variables, constants or types. -/
  | declare (specs : List Spec)

/-- A file of a package. -/
structure SourceFile where
  name : Bytes
  /-- The offset of the package clause. -/
  packagePos : Int
  /-- Groups of comments. -/
  comments : List (List Comment)
  /-- The imports as they are written, quotes included. -/
  imports : List Bytes
  decls : List Decl

/-- A package. -/
structure Package where
  name : Bytes
  /-- The import path. -/
  path : Bytes
  files : List SourceFile

/-- A call that must not be there. -/
structure Report where
  file : Bytes
  offset : Int
  deriving DecidableEq, Repr

/-- What is said about a reported call. -/
def Report.message : Bytes := ascii "do not call os.Exit inside main; return from main instead"

/-! ## Which files count -/

namespace SourceFile

/-- How a line that marks a generated file starts. -/
def markStart : Bytes := ascii "// Code generated "

/-- How a line that marks a generated file ends. -/
def markEnd : Bytes := ascii " DO NOT EDIT."

/-- Whether a line marks a generated file.  Its start and its end do not overlap. -/
def isMark (line : Bytes) : Bool :=
  markStart.isPrefixOf line && markEnd.isSuffixOf (line.drop markStart.length)

/-- The comments of a group that come no later than the package clause, up to the first that does. -/
def leading (f : SourceFile) (group : List Comment) : List Comment :=
  group.takeWhile (·.pos ≤ f.packagePos)

/-- Whether a file is generated. -/
def isGenerated (f : SourceFile) : Bool :=
  f.comments.any fun group => (f.leading group).any fun c => (Bytes.split 10 c.text).any isMark

/-- The import paths of testing. -/
def testingPaths : List Bytes := [ascii "testing", ascii "testing/internal/testdeps"]

/-- Whether a list of import literals holds a spelling of testing. -/
def spellsTesting (imports : List Bytes) : Bool :=
  imports.any fun literal => (Literal.unquote? literal).any (testingPaths.contains ·)

/-- Whether a file lies in a build cache. -/
def isCached (f : SourceFile) : Bool := Bytes.hasInfix (ascii "/go-build/") f.name

/-- Whether a file is not checked. -/
def isSkipped (f : SourceFile) : Bool :=
  f.isCached || f.isGenerated || spellsTesting f.imports

end SourceFile

/-! ## Reports -/

/-- The name of packages and functions that are checked. -/
def mainName : Bytes := ascii "main"

/-- The body of a declaration that is checked. -/
def Decl.mainBody? : Decl → Option (List Stmt)
  | func name hasReceiver body => if name = mainName ∧ hasReceiver = false then body else none
  | declare _ => none

/-- The starts of the calls of the exit function under a node. -/
def Node.exits (n : Node) : List Int :=
  (n.preorder.filter callsExit).filterMap start?

/-- The starts of the calls of the exit function in a body. -/
def exitsOf (body : List Stmt) : List Int := (Node.stmts body).flatMap Node.exits

/-- The reports of a file. -/
def SourceFile.reports (f : SourceFile) : List Report :=
  if f.isSkipped then []
  else (f.decls.filterMap Decl.mainBody?).flatMap fun body =>
    (exitsOf body).map fun offset => ⟨f.name, offset⟩

/-- The end of the path of the checker's own command. -/
def ownPath : Bytes := ascii "/cmd/staticlint"

/-- Whether a package is checked. -/
def Package.isChecked (p : Package) : Bool := p.name = mainName && !ownPath.isSuffixOf p.path

/-- The reports of a package. -/
def Package.reports (p : Package) : List Report :=
  if p.isChecked then p.files.flatMap SourceFile.reports else []

end ExitCheck

end ArgLine
