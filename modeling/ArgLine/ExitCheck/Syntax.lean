import ArgLine.Text.Bytes

/-!
# ArgLine.ExitCheck.Syntax

Syntax trees of a package, with the object that each identifier denotes
already resolved.

* `Expr` and `Stmt` are the expressions, types included, and the statements;
  `Clause` is a branch of a `switch` or a `select`, `Field` what a struct, an
  interface or a parameter list is made of, and `Spec` what a declaration declares.
* `Node` is any of these or an identifier, and `Node.parts` lists what stands directly
  under a node, part by part in the order in which they are visited.
* `Node.preorder` lists a node and all that stands under it, a node before what
  is under it.

The brackets around a body, the branches or some fields are no nodes, and neither
are comments: nothing can be called there.
-/

namespace ArgLine

namespace ExitCheck

/-- What kind of thing an identifier denotes. -/
inductive ObjectKind where
  | func | method | var | const | type | label | builtin | nil | pkgName
  deriving DecidableEq, Repr

/-- What an identifier denotes.  Its name is not the identifier's when it was renamed. -/
structure Object where
  kind : ObjectKind
  /-- The import path of the package it belongs to, if it belongs to one. -/
  package : Option Bytes
  name : Bytes
  deriving DecidableEq, Repr

/-- An identifier: where it stands, how it is written, and what it denotes if that is known. -/
structure Ident where
  pos : Int
  name : Bytes
  object : Option Object
  deriving DecidableEq, Repr

mutual

/-- Expressions.  A position is given where the expression does not start with another one. -/
inductive Expr where
  | ident (id : Ident)
  | selector (x : Expr) (sel : Ident)
  | call (callee : Expr) (args : List Expr)
  | paren (pos : Int) (x : Expr)
  /-- An index, or an instantiation by one type. -/
  | index (x y : Expr) (byType : Bool)
  /-- An instantiation by several types. -/
  | indexList (x : Expr) (ys : List Expr)
  /-- A function without a name.  It starts where its type does. -/
  | function (type : Expr) (body : List Stmt)
  | literal (pos : Int)
  | unary (pos : Int) (x : Expr)
  | star (pos : Int) (x : Expr)
  | binary (x y : Expr)
  | keyValue (x y : Expr)
  | composite (pos : Int) (type : Option Expr) (elements : List Expr)
  | slice (x : Expr) (low high max : Option Expr)
  | assertion (x : Expr) (type : Option Expr)
  /-- The type of any number of arguments, or the length of an array that is left to be counted. -/
  | ellipsis (pos : Int) (type : Option Expr)
  | arrayType (pos : Int) (length : Option Expr) (element : Expr)
  | structType (pos : Int) (fields : List Field)
  | funcType (pos : Int) (typeParams params results : List Field)
  | interfaceType (pos : Int) (methods : List Field)
  | mapType (pos : Int) (key value : Expr)
  | chanType (pos : Int) (value : Expr)
  /-- What could not be read as an expression. -/
  | bad (pos : Int)

/-- Statements. -/
inductive Stmt where
  | expr (x : Expr)
  | deferred (x : Expr)
  | go (x : Expr)
  | block (body : List Stmt)
  | branch (init : Option Stmt) (cond : Expr) (body : List Stmt) (otherwise : Option Stmt)
  | loop (init : Option Stmt) (cond : Option Expr) (post : Option Stmt) (body : List Stmt)
  | range (key value : Option Expr) (x : Expr) (body : List Stmt)
  | switch (init : Option Stmt) (tag : Option Expr) (cases : List Clause)
  /-- A choice by the type of what is assigned. -/
  | typeSwitch (init : Option Stmt) (assign : Stmt) (cases : List Clause)
  | select (cases : List Clause)
  | ret (results : List Expr)
  | assign (lhs rhs : List Expr)
  /-- One more or one less. -/
  | incDec (x : Expr)
  | send (x y : Expr)
  | label (name : Ident) (x : Stmt)
  /-- Leaves or repeats a statement, or goes on elsewhere. -/
  | jump (label : Option Ident)
  | declare (specs : List Spec)
  | empty
  /-- What could not be read as a statement. -/
  | bad

/-- A branch of a `switch` or of a `select`. -/
inductive Clause where
  | values (list : List Expr) (body : List Stmt)
  | comm (op : Option Stmt) (body : List Stmt)

/-- Fields, methods or parameters of one type. -/
inductive Field where
  | mk (names : List Ident) (type tag : Option Expr)

/-- What a declaration declares: variables or constants, or a type. -/
inductive Spec where
  | values (names : List Ident) (type : Option Expr) (values : List Expr)
  | type (name : Ident) (params : List Field) (type : Expr)

end

/-- Any node of a syntax tree. -/
inductive Node where
  /-- An identifier that is no expression: after the dot of a selector, as a label, or where
  something gets its name. -/
  | name (id : Ident)
  | expr (x : Expr)
  | stmt (s : Stmt)
  | clause (c : Clause)
  | field (f : Field)
  | spec (s : Spec)

namespace Node

/-- Identifiers as nodes. -/
def names (ids : List Ident) : List Node := ids.map .name

/-- Expressions as nodes. -/
def exprs (xs : List Expr) : List Node := xs.map .expr

/-- Statements as nodes. -/
def stmts (xs : List Stmt) : List Node := xs.map .stmt

/-- Branches as nodes. -/
def clauses (cs : List Clause) : List Node := cs.map .clause

/-- Fields as nodes. -/
def fields (fs : List Field) : List Node := fs.map .field

/-- The parts of a node in the order in which they are visited, each with what stands in it. -/
def parts : Node → List (List Node)
  | name _ => []
  | expr (.ident _) => []
  | expr (.selector x sel) => [[expr x], [name sel]]
  | expr (.call callee args) => [[expr callee], exprs args]
  | expr (.paren _ x) => [[expr x]]
  | expr (.index x y _) => [[expr x], [expr y]]
  | expr (.indexList x ys) => [[expr x], exprs ys]
  | expr (.function type body) => [[expr type], stmts body]
  | expr (.literal _) => []
  | expr (.unary _ x) => [[expr x]]
  | expr (.star _ x) => [[expr x]]
  | expr (.binary x y) => [[expr x], [expr y]]
  | expr (.keyValue x y) => [[expr x], [expr y]]
  | expr (.composite _ type elements) => [exprs type.toList, exprs elements]
  | expr (.slice x low high max) =>
    [[expr x], exprs low.toList, exprs high.toList, exprs max.toList]
  | expr (.assertion x type) => [[expr x], exprs type.toList]
  | expr (.ellipsis _ type) => [exprs type.toList]
  | expr (.arrayType _ length element) => [exprs length.toList, [expr element]]
  | expr (.structType _ members) => [fields members]
  | expr (.funcType _ typeParams params results) =>
    [fields typeParams, fields params, fields results]
  | expr (.interfaceType _ methods) => [fields methods]
  | expr (.mapType _ key value) => [[expr key], [expr value]]
  | expr (.chanType _ value) => [[expr value]]
  | expr (.bad _) => []
  | stmt (.expr x) => [[expr x]]
  | stmt (.deferred x) => [[expr x]]
  | stmt (.go x) => [[expr x]]
  | stmt (.block body) => [stmts body]
  | stmt (.branch init cond body otherwise) =>
    [stmts init.toList, [expr cond], stmts body, stmts otherwise.toList]
  | stmt (.loop init cond post body) =>
    [stmts init.toList, exprs cond.toList, stmts post.toList, stmts body]
  | stmt (.range key value x body) =>
    [exprs key.toList, exprs value.toList, [expr x], stmts body]
  | stmt (.switch init tag cases) => [stmts init.toList, exprs tag.toList, clauses cases]
  | stmt (.typeSwitch init assign cases) => [stmts init.toList, [stmt assign], clauses cases]
  | stmt (.select cases) => [clauses cases]
  | stmt (.ret results) => [exprs results]
  | stmt (.assign lhs rhs) => [exprs lhs, exprs rhs]
  | stmt (.incDec x) => [[expr x]]
  | stmt (.send x y) => [[expr x], [expr y]]
  | stmt (.label id x) => [[name id], [stmt x]]
  | stmt (.jump label) => [names label.toList]
  | stmt (.declare specs) => [specs.map spec]
  | stmt .empty => []
  | stmt .bad => []
  | clause (.values list body) => [exprs list, stmts body]
  | clause (.comm op body) => [stmts op.toList, stmts body]
  | field (.mk ids type tag) => [names ids, exprs type.toList, exprs tag.toList]
  | spec (.values ids type values) => [names ids, exprs type.toList, exprs values]
  | spec (.type id params type) => [[name id], fields params, [expr type]]

/-- What stands directly under a node, in the order in which it is visited. -/
def children (n : Node) : List Node := n.parts.flatten

/-! ### Children are smaller -/

section Size

variable {α : Type} [SizeOf α] {wrap : α → Node} (hwrap : ∀ x, sizeOf (wrap x) = 1 + sizeOf x)

include hwrap

theorem sizeOf_le_of_mem_map {xs : List α} {c : Node} (h : c ∈ xs.map wrap) :
    sizeOf c ≤ sizeOf xs := by
  obtain ⟨x, hx, rfl⟩ := List.mem_map.1 h
  have hlt := List.sizeOf_lt_of_mem hx
  rw [hwrap]
  omega

theorem sizeOf_le_of_mem_map_toList {x : Option α} {c : Node} (h : c ∈ x.toList.map wrap) :
    sizeOf c ≤ sizeOf x := by
  cases x with
  | none => simp at h
  | some y =>
    have hc : c = wrap y := by simpa using h
    simp [hc, hwrap]

end Size

/-- A child is smaller than the node it stands under. -/
theorem sizeOf_lt_of_mem_children {n c : Node} (h : c ∈ n.children) : sizeOf c < sizeOf n := by
  have hname := @sizeOf_le_of_mem_map _ _ name name.sizeOf_spec
  have hexpr := @sizeOf_le_of_mem_map _ _ expr expr.sizeOf_spec
  have hstmt := @sizeOf_le_of_mem_map _ _ stmt stmt.sizeOf_spec
  have hclause := @sizeOf_le_of_mem_map _ _ clause clause.sizeOf_spec
  have hfield := @sizeOf_le_of_mem_map _ _ field field.sizeOf_spec
  have hspec := @sizeOf_le_of_mem_map _ _ spec spec.sizeOf_spec
  have hname? := @sizeOf_le_of_mem_map_toList _ _ name name.sizeOf_spec
  have hexpr? := @sizeOf_le_of_mem_map_toList _ _ expr expr.sizeOf_spec
  have hstmt? := @sizeOf_le_of_mem_map_toList _ _ stmt stmt.sizeOf_spec
  rw [children, List.mem_flatten] at h
  obtain ⟨part, hpart, hc⟩ := h
  cases n with
  | name id => simp [parts] at hpart
  | expr x => cases x <;> simp only [parts, exprs, stmts, fields] at hpart <;> grind
  | stmt s => cases s <;> simp only [parts, names, exprs, stmts, clauses] at hpart <;> grind
  | clause c => cases c <;> simp only [parts, exprs, stmts] at hpart <;> grind
  | field f => cases f; simp only [parts, names, exprs] at hpart; grind
  | spec s => cases s <;> simp only [parts, names, exprs, fields] at hpart <;> grind

/-- A node and all that stands under it, a node before what is under it. -/
def preorder (n : Node) : List Node :=
  n :: n.children.attach.flatMap fun c => preorder c.1
termination_by n
decreasing_by exact sizeOf_lt_of_mem_children c.2

/-- A node comes first, then what its children list, in order. -/
theorem preorder_eq (n : Node) : n.preorder = n :: n.children.flatMap preorder := by
  rw [preorder]
  conv => rhs; rw [← List.attach_map_subtype_val n.children, List.flatMap_map]

end Node

end ExitCheck

end ArgLine
