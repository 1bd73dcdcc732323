import ArgLine.ExitCheck.Syntax

/-!
# ArgLine.ExitCheck.Callee

Where an expression starts, and what a call calls.

The callee of a call is found by name.  Parentheses around it are looked
through, then one instantiation, then parentheses again; what is left has to be
an identifier or a selector.
-/

namespace ArgLine

namespace ExitCheck

namespace Expr

/-- Where an expression starts. -/
def start : Expr → Int
  | ident id => id.pos
  | selector x _ => x.start
  | call callee _ => callee.start
  | paren pos _ => pos
  | index x _ _ => x.start
  | indexList x _ => x.start
  | function type _ => type.start
  | literal pos => pos
  | unary pos _ => pos
  | star pos _ => pos
  | binary x _ => x.start
  | keyValue x _ => x.start
  | composite _ (some type) _ => type.start
  | composite pos none _ => pos
  | slice x _ _ _ => x.start
  | assertion x _ => x.start
  | ellipsis pos _ => pos
  | arrayType pos _ _ => pos
  | structType pos _ => pos
  | funcType pos _ _ _ => pos
  | interfaceType pos _ => pos
  | mapType pos _ _ => pos
  | chanType pos _ => pos
  | bad pos => pos

/-- An expression without the parentheses around it. -/
def unparen : Expr → Expr
  | paren _ x => x.unparen
  | x => x

/-- What is instantiated by an expression without parentheses, or the expression itself. -/
def generic : Expr → Expr
  | index x _ true => x
  | indexList x _ => x
  | x => x

/-- What an identifier or a selector denotes. -/
def denoted? : Expr → Option Object
  | ident id => id.object
  | selector _ sel => sel.object
  | _ => none

/-- What is called when this expression is the callee.  A conversion to a type calls nothing. -/
def target? (callee : Expr) : Option Object :=
  callee.unparen.generic.unparen.denoted?.filter (·.kind ≠ .type)

end Expr

/-- The import path of the package whose exit function must not be called. -/
def exitPackage : Bytes := ascii "os"

/-- The name of the exit function. -/
def exitName : Bytes := ascii "Exit"

/-- Whether an object is the exit function. -/
def Object.isExit (o : Object) : Bool :=
  (o.kind = .func || o.kind = .method) && o.package = some exitPackage && o.name = exitName

/-- Whether a node is a call of the exit function. -/
def Node.callsExit : Node → Bool
  | .expr (.call callee _) => callee.target?.any Object.isExit
  | _ => false

/-- Where a node starts, for an expression. -/
def Node.start? : Node → Option Int
  | .expr x => some x.start
  | _ => none

end ExitCheck

end ArgLine
