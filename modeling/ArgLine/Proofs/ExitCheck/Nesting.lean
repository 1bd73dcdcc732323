import Mathlib.Data.List.Forall2
import ArgLine.Proofs.ExitCheck.Invariance

/-!
# ArgLine.Proofs.ExitCheck.Nesting

Neither parentheses nor nesting hide a call.

* An `Edit` says, place by place, what becomes of a tree: which parentheses are put around the
  callee of a call, what is made of the statements of a body, and where the tokens come to
  stand.  `Expr.edit` makes all these changes at once.
* `Nests` lists the statements that hold other statements and no exit of their own, and
  `Moved` moves statements of a body under such a statement.
* `callees_edit`: the calls of the exit function in an edited tree are those of the tree, each
  with its callee edited.
* A `Site` is a place for the body of a `main` function, and `calls_not_hidden` says what is
  reported when an edited body is put there.
-/

namespace ArgLine

namespace ExitCheck

/-! ## the calls in a tree -/

namespace Node

def callee? : Node → Option Expr
  | expr (.call callee _) => some callee
  | _ => none

def exitCallee? (n : Node) : Option Expr := if n.callsExit then n.callee? else none

/-- The callees of the calls of the exit function under a node. -/
def callees (n : Node) : List Expr := n.preorder.filterMap exitCallee?

/-- The calls of the exit function under a node: the path to each, and its callee. -/
def exitCalls (n : Node) : List (Path × Expr) :=
  n.located.filterMap fun q => q.2.exitCallee?.map (q.1, ·)

/-- The callee that is picked out is that of a call of the exit function. -/
theorem exitCallee?_eq_some {n : Node} {callee : Expr} :
    n.exitCallee? = some callee ↔ ∃ args, n = expr (.call callee args) ∧ callee.CallsExit := by
  unfold exitCallee?
  by_cases h : n.callsExit
  · obtain ⟨f, args, rfl, hexit⟩ := callsExit_iff.1 h
    rw [if_pos h]
    constructor
    · intro hf
      obtain rfl : f = callee := Option.some.inj hf
      exact ⟨args, rfl, hexit⟩
    · rintro ⟨args', he, -⟩
      obtain ⟨rfl, -⟩ := Expr.call.inj (Node.expr.inj he)
      rfl
  · rw [if_neg h]
    refine iff_of_false (by simp) ?_
    rintro ⟨args, rfl, hexit⟩
    exact h (callsExit_iff.2 ⟨callee, args, rfl, hexit⟩)

/-- The calls under a node are its own, if it is one, and those under its children. -/
theorem callees_eq (n : Node) : n.callees = n.exitCallee?.toList ++ n.children.flatMap callees :=
  n.filterMap_preorder exitCallee?

/-- A call is reported where its callee starts. -/
theorem exits_eq (n : Node) : n.exits = n.callees.map Expr.start := by
  rw [exits, callees, List.filterMap_filter, List.map_filterMap]
  apply List.filterMap_congr
  intro m _
  by_cases h : m.callsExit
  · obtain ⟨callee, args, rfl, -⟩ := callsExit_iff.1 h
    simp [exitCallee?, h, callee?, start?, Expr.start]
  · simp [exitCallee?, h]

/-- The calls that are listed are those to which paths lead. -/
theorem mem_exitCalls {n : Node} {p : Path} {callee : Expr} :
    (p, callee) ∈ n.exitCalls ↔
      ∃ args, Descends n p (expr (.call callee args)) ∧ callee.CallsExit := by
  simp only [exitCalls, List.mem_filterMap, Prod.exists, mem_located, Option.map_eq_some_iff,
    exitCallee?_eq_some, Prod.mk.injEq]
  constructor
  · rintro ⟨p, m, hd, f, ⟨args, rfl, hexit⟩, rfl, rfl⟩
    exact ⟨args, hd, hexit⟩
  · rintro ⟨args, hd, hexit⟩
    exact ⟨p, _, hd, callee, ⟨args, rfl, hexit⟩, rfl, rfl⟩

/-- They are listed in the order of the paths, no path twice. -/
theorem pairwise_exitCalls (n : Node) :
    n.exitCalls.Pairwise fun a b => List.Lex (· < ·) a.1 b.1 := by
  refine n.pairwise_located.filterMap _ ?_
  intro a b hab x hx y hy
  obtain ⟨_, -, rfl⟩ := Option.map_eq_some_iff.1 hx
  obtain ⟨_, -, rfl⟩ := Option.map_eq_some_iff.1 hy
  exact hab

/-- Without their paths, they are the calls that the walk meets. -/
theorem map_snd_exitCalls (n : Node) : n.exitCalls.map Prod.snd = n.callees := by
  rw [callees, ← map_snd_located, exitCalls, List.filterMap_map, List.map_filterMap]
  simp [Function.comp_def]

/-- A call under a child lies on a path that starts with the slot of the child. -/
theorem exitCalls_eq (n : Node) : n.exitCalls = n.exitCallee?.toList.map ([], ·) ++
    n.slots.flatMap fun x => x.2.exitCalls.map fun q => (x.1 :: q.1, q.2) := by
  rw [exitCalls, located_eq, List.filterMap_cons, List.filterMap_flatMap]
  have hbelow (x : Slot × Node) :
      ((x.2.located.map fun q => (x.1 :: q.1, q.2)).filterMap fun q =>
        q.2.exitCallee?.map (q.1, ·)) = x.2.exitCalls.map fun q => (x.1 :: q.1, q.2) := by
    rw [exitCalls, List.filterMap_map, List.map_filterMap]
    simp [Function.comp_def]
  simp only [hbelow]
  cases n.exitCallee? <;> rfl

/-- No call of the exit function stands under a node. -/
def Quiet (n : Node) : Prop :=
  ∀ p callee args, Descends n p (expr (.call callee args)) → ¬ callee.CallsExit

/-- A node is quiet if no call is listed for it. -/
theorem quiet_iff {n : Node} : n.Quiet ↔ n.callees = [] := by
  rw [← map_snd_exitCalls, List.map_eq_nil_iff, List.eq_nil_iff_forall_not_mem]
  constructor
  · rintro h ⟨p, callee⟩ hmem
    obtain ⟨args, hd, hexit⟩ := mem_exitCalls.1 hmem
    exact h p callee args hd hexit
  · intro h p callee args hd hexit
    exact h (p, callee) (mem_exitCalls.2 ⟨args, hd, hexit⟩)

theorem quiet_name (id : Ident) : (name id).Quiet := by
  rw [quiet_iff, callees_eq]
  rfl

end Node

/-! ## edits -/

/-- An expression in parentheses, the outermost first. -/
def Expr.parens (ps : List Int) (x : Expr) : Expr := ps.foldr .paren x

/-- What is changed in a tree, by the place at which it stands. -/
structure Edit where
  /-- Where the token of a node comes to stand. -/
  offset : Path → Int → Int
  /-- Which parentheses are put around the callee of a call. -/
  parens : Path → List Int
  /-- What is made of the statements in the body of a node. -/
  body : Path → List Stmt → List Stmt

/-- What is changed under the node at a place. -/
def Edit.under (e : Edit) (p : Path) : Edit :=
  ⟨fun q => e.offset (p ++ q), fun q => e.parens (p ++ q), fun q => e.body (p ++ q)⟩

def Ident.edit (e : Edit) (id : Ident) : Ident := { id with pos := e.offset [] id.pos }

def Ident.editList (e : Edit) (part item : Nat) : List Ident → List Ident
  | [] => []
  | id :: ids => id.edit (e.under [⟨part, item⟩]) :: Ident.editList e part (item + 1) ids

mutual

/-- An expression with all changes made, the inner ones first. -/
def Expr.edit (e : Edit) : Expr → Expr
  | .ident id => .ident (id.edit e)
  | .selector x sel => .selector (x.edit (e.under [⟨0, 0⟩])) (sel.edit (e.under [⟨1, 0⟩]))
  | .call callee args =>
    .call ((callee.edit (e.under [⟨0, 0⟩])).parens (e.parens [])) (Expr.editList e 1 0 args)
  | .paren pos x => .paren (e.offset [] pos) (x.edit (e.under [⟨0, 0⟩]))
  | .index x y byType =>
    .index (x.edit (e.under [⟨0, 0⟩])) (y.edit (e.under [⟨1, 0⟩])) byType
  | .indexList x ys => .indexList (x.edit (e.under [⟨0, 0⟩])) (Expr.editList e 1 0 ys)
  | .function type body =>
    .function (type.edit (e.under [⟨0, 0⟩])) (e.body [] (Stmt.editList e 1 0 body))
  | .literal pos => .literal (e.offset [] pos)
  | .unary pos x => .unary (e.offset [] pos) (x.edit (e.under [⟨0, 0⟩]))
  | .star pos x => .star (e.offset [] pos) (x.edit (e.under [⟨0, 0⟩]))
  | .binary x y => .binary (x.edit (e.under [⟨0, 0⟩])) (y.edit (e.under [⟨1, 0⟩]))
  | .keyValue x y => .keyValue (x.edit (e.under [⟨0, 0⟩])) (y.edit (e.under [⟨1, 0⟩]))
  | .composite pos type elements =>
    .composite (e.offset [] pos) (Expr.edit? e 0 type) (Expr.editList e 1 0 elements)
  | .slice x low high max =>
    .slice (x.edit (e.under [⟨0, 0⟩])) (Expr.edit? e 1 low) (Expr.edit? e 2 high)
      (Expr.edit? e 3 max)
  | .assertion x type => .assertion (x.edit (e.under [⟨0, 0⟩])) (Expr.edit? e 1 type)
  | .ellipsis pos type => .ellipsis (e.offset [] pos) (Expr.edit? e 0 type)
  | .arrayType pos length element =>
    .arrayType (e.offset [] pos) (Expr.edit? e 0 length) (element.edit (e.under [⟨1, 0⟩]))
  | .structType pos members => .structType (e.offset [] pos) (Field.editList e 0 0 members)
  | .funcType pos typeParams params results =>
    .funcType (e.offset [] pos) (Field.editList e 0 0 typeParams) (Field.editList e 1 0 params)
      (Field.editList e 2 0 results)
  | .interfaceType pos methods => .interfaceType (e.offset [] pos) (Field.editList e 0 0 methods)
  | .mapType pos key value =>
    .mapType (e.offset [] pos) (key.edit (e.under [⟨0, 0⟩])) (value.edit (e.under [⟨1, 0⟩]))
  | .chanType pos value => .chanType (e.offset [] pos) (value.edit (e.under [⟨0, 0⟩]))
  | .bad pos => .bad (e.offset [] pos)

def Expr.edit? (e : Edit) (part : Nat) : Option Expr → Option Expr
  | none => none
  | some x => some (x.edit (e.under [⟨part, 0⟩]))

def Expr.editList (e : Edit) (part item : Nat) : List Expr → List Expr
  | [] => []
  | x :: xs => x.edit (e.under [⟨part, item⟩]) :: Expr.editList e part (item + 1) xs

def Stmt.edit (e : Edit) : Stmt → Stmt
  | .expr x => .expr (x.edit (e.under [⟨0, 0⟩]))
  | .deferred x => .deferred (x.edit (e.under [⟨0, 0⟩]))
  | .go x => .go (x.edit (e.under [⟨0, 0⟩]))
  | .block body => .block (e.body [] (Stmt.editList e 0 0 body))
  | .branch init cond body otherwise =>
    .branch (Stmt.edit? e 0 init) (cond.edit (e.under [⟨1, 0⟩]))
      (e.body [] (Stmt.editList e 2 0 body)) (Stmt.edit? e 3 otherwise)
  | .loop init cond post body =>
    .loop (Stmt.edit? e 0 init) (Expr.edit? e 1 cond) (Stmt.edit? e 2 post)
      (e.body [] (Stmt.editList e 3 0 body))
  | .range key value x body =>
    .range (Expr.edit? e 0 key) (Expr.edit? e 1 value) (x.edit (e.under [⟨2, 0⟩]))
      (e.body [] (Stmt.editList e 3 0 body))
  | .switch init tag cases =>
    .switch (Stmt.edit? e 0 init) (Expr.edit? e 1 tag) (Clause.editList e 2 0 cases)
  | .typeSwitch init assign cases =>
    .typeSwitch (Stmt.edit? e 0 init) (assign.edit (e.under [⟨1, 0⟩])) (Clause.editList e 2 0 cases)
  | .select cases => .select (Clause.editList e 0 0 cases)
  | .ret results => .ret (Expr.editList e 0 0 results)
  | .assign lhs rhs => .assign (Expr.editList e 0 0 lhs) (Expr.editList e 1 0 rhs)
  | .incDec x => .incDec (x.edit (e.under [⟨0, 0⟩]))
  | .send x y => .send (x.edit (e.under [⟨0, 0⟩])) (y.edit (e.under [⟨1, 0⟩]))
  | .label id x => .label (id.edit (e.under [⟨0, 0⟩])) (x.edit (e.under [⟨1, 0⟩]))
  | .jump label => .jump (label.map fun id => id.edit (e.under [⟨0, 0⟩]))
  | .declare specs => .declare (Spec.editList e 0 0 specs)
  | .empty => .empty
  | .bad => .bad

def Stmt.edit? (e : Edit) (part : Nat) : Option Stmt → Option Stmt
  | none => none
  | some s => some (s.edit (e.under [⟨part, 0⟩]))

def Stmt.editList (e : Edit) (part item : Nat) : List Stmt → List Stmt
  | [] => []
  | s :: body => s.edit (e.under [⟨part, item⟩]) :: Stmt.editList e part (item + 1) body

def Clause.edit (e : Edit) : Clause → Clause
  | .values list body =>
    .values (Expr.editList e 0 0 list) (e.body [] (Stmt.editList e 1 0 body))
  | .comm op body => .comm (Stmt.edit? e 0 op) (e.body [] (Stmt.editList e 1 0 body))

def Clause.editList (e : Edit) (part item : Nat) : List Clause → List Clause
  | [] => []
  | c :: cases => c.edit (e.under [⟨part, item⟩]) :: Clause.editList e part (item + 1) cases

def Field.edit (e : Edit) : Field → Field
  | .mk ids type tag => .mk (Ident.editList e 0 0 ids) (Expr.edit? e 1 type) (Expr.edit? e 2 tag)

def Field.editList (e : Edit) (part item : Nat) : List Field → List Field
  | [] => []
  | f :: members => f.edit (e.under [⟨part, item⟩]) :: Field.editList e part (item + 1) members

def Spec.edit (e : Edit) : Spec → Spec
  | .values ids type values =>
    .values (Ident.editList e 0 0 ids) (Expr.edit? e 1 type) (Expr.editList e 2 0 values)
  | .type id params type =>
    .type (id.edit (e.under [⟨0, 0⟩])) (Field.editList e 1 0 params)
      (type.edit (e.under [⟨2, 0⟩]))

def Spec.editList (e : Edit) (part item : Nat) : List Spec → List Spec
  | [] => []
  | s :: specs => s.edit (e.under [⟨part, item⟩]) :: Spec.editList e part (item + 1) specs

end

def Node.edit (e : Edit) : Node → Node
  | .name id => .name (id.edit e)
  | .expr x => .expr (x.edit e)
  | .stmt s => .stmt (s.edit e)
  | .clause c => .clause (c.edit e)
  | .field f => .field (f.edit e)
  | .spec s => .spec (s.edit e)

/-- A body with all changes made, those of the body itself last. -/
def Edit.apply (e : Edit) (body : List Stmt) : List Stmt := e.body [] (Stmt.editList e 0 0 body)

/-- What becomes of the callee of the call at a place. -/
def Edit.callee (e : Edit) (q : Path × Expr) : Expr :=
  (q.2.edit (e.under (q.1 ++ [⟨0, 0⟩]))).parens (e.parens q.1)

/-! ## what an edited call calls -/

namespace Expr

theorem unparen_parens (ps : List Int) (x : Expr) : (x.parens ps).unparen = x.unparen := by
  induction ps with
  | nil => rfl
  | cons pos ps ih => exact ih

/-- What stands in the parentheses is edited, too, each part at its own place. -/
theorem unparen_edit (e : Edit) (x : Expr) : ∃ e', (x.edit e).unparen = x.unparen.edit e' := by
  fun_induction unparen x generalizing e with
  | case1 pos x ih => simpa only [edit, unparen] using ih (e.under [⟨0, 0⟩])
  | case2 x hx => exact ⟨e, by cases x <;> simp_all [edit, unparen]⟩

theorem generic_edit (e : Edit) (x : Expr) : ∃ e', (x.edit e).generic = x.generic.edit e' := by
  fun_cases generic x with
  | case1 x y => exact ⟨e.under [⟨0, 0⟩], by simp only [edit, generic]⟩
  | case2 x ys => exact ⟨e.under [⟨0, 0⟩], by simp only [edit, generic]⟩
  | case3 x hi hl => exact ⟨e, by cases x <;> simp_all [edit, generic]⟩

/-- An edit moves tokens; what they denote stays. -/
theorem denoted?_edit (e : Edit) (x : Expr) : (x.edit e).denoted? = x.denoted? := by
  cases x <;> simp [edit, denoted?, Ident.edit]

/-- A callee calls the same after an edit, in whatever parentheses. -/
theorem target?_edit (ps : List Int) (e : Edit) (x : Expr) :
    ((x.edit e).parens ps).target? = x.target? := by
  obtain ⟨e₁, h₁⟩ := x.unparen_edit e
  obtain ⟨e₂, h₂⟩ := x.unparen.generic_edit e₁
  obtain ⟨e₃, h₃⟩ := x.unparen.generic.unparen_edit e₂
  rw [target?, target?, unparen_parens, h₁, h₂, h₃, denoted?_edit]

end Expr

namespace Node

/-- A call of the exit function stays one under an edit, and no other node becomes one. -/
theorem exitCallee?_edit (e : Edit) (n : Node) :
    (n.edit e).exitCallee? = n.exitCallee?.map fun callee => e.callee ([], callee) := by
  cases n with
  | expr x =>
    cases x with
    | call callee args =>
      have hcalls : (edit e (expr (.call callee args))).callsExit =
          (expr (.call callee args)).callsExit := by
        simp only [edit, Expr.edit, callsExit, Expr.target?_edit]
      unfold exitCallee?
      rw [hcalls]
      split <;> rfl
    | _ => rfl
  | _ => rfl

end Node

/-! ## moving statements -/

/-- Whether the order of a list is to be kept. -/
inductive Order where
  | kept | free

namespace Order

/-- Two lists are the same, if the order is free up to it. -/
def Same : Order → List α → List α → Prop
  | kept, xs, ys => xs = ys
  | free, xs, ys => xs.Perm ys

variable {order : Order}

@[simp] theorem Same.refl (xs : List α) : order.Same xs xs := by
  cases order with
  | kept => exact Eq.refl xs
  | free => exact List.Perm.refl xs

theorem Same.trans {xs ys zs : List α} (h : order.Same xs ys) (h' : order.Same ys zs) :
    order.Same xs zs := by
  cases order with
  | kept => exact Eq.trans h h'
  | free => exact List.Perm.trans h h'

theorem Same.symm {xs ys : List α} (h : order.Same xs ys) : order.Same ys xs := by
  cases order with
  | kept => exact Eq.symm h
  | free => exact List.Perm.symm h

theorem Same.append {xs ys us vs : List α} (h : order.Same xs ys) (h' : order.Same us vs) :
    order.Same (xs ++ us) (ys ++ vs) := by
  cases order with
  | kept => exact congrArg₂ _ h h'
  | free => exact List.Perm.append h h'

theorem Same.flatMap {xs ys : List α} (h : order.Same xs ys) (f : α → List β) :
    order.Same (xs.flatMap f) (ys.flatMap f) := by
  cases order with
  | kept => exact congrArg _ h
  | free => exact List.Perm.flatMap_right f h

theorem Same.map {xs ys : List α} (h : order.Same xs ys) (f : α → β) :
    order.Same (xs.map f) (ys.map f) := by
  cases order with
  | kept => exact congrArg _ h
  | free => exact List.Perm.map f h

/-- Lists made part by part are the same if each part is. -/
theorem same_flatMap_of_forall₂ {xs : List α} {ys : List β} {f : α → List γ} {g : β → List γ}
    (h : List.Forall₂ (fun x y => order.Same (f x) (g y)) xs ys) :
    order.Same (xs.flatMap f) (ys.flatMap g) := by
  induction h with
  | nil => exact Same.refl []
  | cons hxy _ ih =>
    rw [List.flatMap_cons, List.flatMap_cons]
    exact hxy.append ih

end Order

/-- A statement holds some statements, and outside of them no call of the exit function. -/
inductive Nests : List Stmt → Stmt → Prop where
  | block {body} : Nests body (.block body)
  | branch {init cond body otherwise}
      (h : ∀ n ∈ Node.stmts init.toList ++ [.expr cond] ++ Node.stmts otherwise.toList, n.Quiet) :
      Nests body (.branch init cond body otherwise)
  | loop {init cond post body}
      (h : ∀ n ∈ Node.stmts init.toList ++ Node.exprs cond.toList ++ Node.stmts post.toList,
        n.Quiet) : Nests body (.loop init cond post body)
  | range {key value x body}
      (h : ∀ n ∈ Node.exprs key.toList ++ Node.exprs value.toList ++ [.expr x], n.Quiet) :
      Nests body (.range key value x body)
  | label {id s} : Nests [s] (.label id s)
  /-- A function that is called where it stands, or whose call is deferred or started. -/
  | call {run type body args} (hrun : run ∈ [Stmt.expr, Stmt.deferred, Stmt.go])
      (h : ∀ n ∈ .expr type :: Node.exprs args, n.Quiet) :
      Nests body (run (.call (.function type body) args))

/-- Statements of a body are moved under others, any number of times: those that are moved may
stand anywhere in the body if the order is free, and next to each other if it is kept. -/
inductive Moved (order : Order) : List Stmt → List Stmt → Prop where
  | stay {body} : Moved order body body
  | move {body us moved vs s} (h : order.Same body (us ++ moved ++ vs)) (hs : Nests moved s) :
      Moved order body (us ++ s :: vs)
  | again {body body' body''} (h : Moved order body body') (h' : Moved order body' body'') :
      Moved order body body''

/-- What is made of a body is to move statements of it. -/
def Edit.Moves (order : Order) (e : Edit) : Prop := ∀ p body, Moved order body (e.body p body)

theorem Edit.Moves.under {order : Order} {e : Edit} (h : e.Moves order) (p : Path) :
    (e.under p).Moves order := fun q body => h (p ++ q) body

namespace Node

/-- Of the children of a node, those that are quiet add nothing to its calls. -/
theorem callees_of_children {n : Node} (us ns vs : List Node) (hn : n.exitCallee? = none)
    (hc : n.children = us ++ ns ++ vs) (h : ∀ m ∈ us ++ vs, m.Quiet) :
    n.callees = ns.flatMap callees := by
  have hquiet : (us ++ vs).flatMap callees = [] :=
    List.flatMap_eq_nil_iff.2 fun m hm => quiet_iff.1 (h m hm)
  rw [List.flatMap_append, List.append_eq_nil_iff] at hquiet
  rw [callees_eq, hn, hc, List.flatMap_append, List.flatMap_append, hquiet.1, hquiet.2]
  simp

/-- A node that is no call of the exit function has the calls of its children. -/
theorem callees_of_ne {n : Node} (hn : n.exitCallee? = none) :
    n.callees = n.children.flatMap callees :=
  callees_of_children [] n.children [] hn (by simp) (by simp)

theorem callees_parens (ps : List Int) (x : Expr) :
    (expr (x.parens ps)).callees = (expr x).callees := by
  induction ps with
  | nil => rfl
  | cons pos ps ih =>
    change (expr (.paren pos (x.parens ps))).callees = (expr x).callees
    rw [callees_of_ne rfl, ← ih]
    simp [children, parts]

end Node

/-- A statement that holds others has their calls and no more. -/
theorem Nests.callees_eq {body : List Stmt} {s : Stmt} (h : Nests body s) :
    (Node.stmt s).callees = (Node.stmts body).flatMap Node.callees := by
  cases h with
  | block => exact Node.callees_of_children [] _ [] rfl rfl (by simp)
  | @branch init cond body otherwise h =>
    exact Node.callees_of_children (Node.stmts init.toList ++ [.expr cond]) _
      (Node.stmts otherwise.toList) rfl (by simp [Node.children, Node.parts]) h
  | @loop init cond post body h =>
    refine Node.callees_of_children
      (Node.stmts init.toList ++ Node.exprs cond.toList ++ Node.stmts post.toList) _ [] rfl
      (by simp [Node.children, Node.parts]) (by simpa using h)
  | @range key value x body h =>
    refine Node.callees_of_children (Node.exprs key.toList ++ Node.exprs value.toList ++ [.expr x])
      _ [] rfl (by simp [Node.children, Node.parts]) (by simpa using h)
  | @label id s =>
    exact Node.callees_of_children [.name id] [.stmt s] [] rfl rfl (by simp [Node.quiet_name])
  | @call run type body args hrun h =>
    have htype : (Node.expr type).Quiet := h _ List.mem_cons_self
    have hargs : ∀ n ∈ Node.exprs args, n.Quiet := fun n hn => h n (List.mem_cons_of_mem _ hn)
    have hfunction : (Node.expr (.function type body)).callees =
        (Node.stmts body).flatMap Node.callees :=
      Node.callees_of_children [.expr type] _ [] rfl rfl (by simpa using htype)
    have hcall : (Node.expr (.call (.function type body) args)).callees =
        [Node.expr (.function type body)].flatMap Node.callees :=
      Node.callees_of_children [] _ (Node.exprs args) rfl (by simp [Node.children, Node.parts])
        hargs
    have hrun' : (Node.stmt (run (.call (.function type body) args))).callees =
        [Node.expr (.call (.function type body) args)].flatMap Node.callees := by
      simp only [List.mem_cons, List.not_mem_nil, or_false] at hrun
      rcases hrun with rfl | rfl | rfl <;> exact Node.callees_of_ne rfl
    rw [hrun', List.flatMap_singleton, hcall, List.flatMap_singleton, hfunction]

/-- Moving statements keeps the calls, up to the order if that is free. -/
theorem Moved.same_callees {order : Order} {body body' : List Stmt} (h : Moved order body body') :
    order.Same ((Node.stmts body).flatMap Node.callees)
      ((Node.stmts body').flatMap Node.callees) := by
  induction h with
  | stay => exact Order.Same.refl _
  | @move body us moved vs s h hs =>
    have hcalls : (Node.stmts (us ++ s :: vs)).flatMap Node.callees =
        (Node.stmts (us ++ moved ++ vs)).flatMap Node.callees := by
      simp [Node.stmts, List.flatMap_map, hs.callees_eq]
    rw [hcalls]
    exact (h.map Node.stmt).flatMap Node.callees
  | again _ _ ih ih' => exact ih.trans ih'

/-! ## what an edited tree calls -/

namespace Node

/-- The calls in the items of a part of a node, each edited at its own place. -/
def editedCallees (e : Edit) (part item : Nat) (ns : List Node) : List Expr :=
  (ns.zipIdx item).flatMap fun x => (x.1.edit (e.under [⟨part, x.2⟩])).callees

@[simp] theorem editedCallees_singleton (e : Edit) (part item : Nat) (n : Node) :
    editedCallees e part item [n] = (n.edit (e.under [⟨part, item⟩])).callees := by
  simp [editedCallees]

/-- The calls in an edited part are those of its items, each edited at its own place.  The items
are of one kind, and `edited` changes them one by one. -/
theorem flatMap_callees_edited {α : Type} {toNode : α → Node} {edited : Nat → List α → List α}
    {e : Edit} {part : Nat} (hnil : ∀ item, edited item [] = [])
    (hcons : ∀ item x xs, (edited item (x :: xs)).map toNode =
      (toNode x).edit (e.under [⟨part, item⟩]) :: (edited (item + 1) xs).map toNode)
    (item : Nat) (xs : List α) :
    ((edited item xs).map toNode).flatMap callees = editedCallees e part item (xs.map toNode) := by
  induction xs generalizing item with
  | nil =>
    rw [hnil]
    rfl
  | cons x xs ih =>
    rw [hcons, List.flatMap_cons, ih]
    rfl

@[simp] theorem flatMap_callees_names (e : Edit) (part item : Nat) (xs : List Ident) :
    (names (Ident.editList e part item xs)).flatMap callees =
      editedCallees e part item (names xs) :=
  flatMap_callees_edited (fun _ => rfl) (fun _ _ _ => rfl) item xs

@[simp] theorem flatMap_callees_exprs (e : Edit) (part item : Nat) (xs : List Expr) :
    (exprs (Expr.editList e part item xs)).flatMap callees =
      editedCallees e part item (exprs xs) :=
  flatMap_callees_edited (fun _ => rfl) (fun _ _ _ => rfl) item xs

@[simp] theorem flatMap_callees_stmts (e : Edit) (part item : Nat) (xs : List Stmt) :
    (stmts (Stmt.editList e part item xs)).flatMap callees =
      editedCallees e part item (stmts xs) :=
  flatMap_callees_edited (fun _ => rfl) (fun _ _ _ => rfl) item xs

@[simp] theorem flatMap_callees_clauses (e : Edit) (part item : Nat) (xs : List Clause) :
    (clauses (Clause.editList e part item xs)).flatMap callees =
      editedCallees e part item (clauses xs) :=
  flatMap_callees_edited (fun _ => rfl) (fun _ _ _ => rfl) item xs

@[simp] theorem flatMap_callees_fields (e : Edit) (part item : Nat) (xs : List Field) :
    (fields (Field.editList e part item xs)).flatMap callees =
      editedCallees e part item (fields xs) :=
  flatMap_callees_edited (fun _ => rfl) (fun _ _ _ => rfl) item xs

@[simp] theorem flatMap_callees_specs (e : Edit) (part item : Nat) (xs : List Spec) :
    ((Spec.editList e part item xs).map spec).flatMap callees =
      editedCallees e part item (xs.map spec) :=
  flatMap_callees_edited (fun _ => rfl) (fun _ _ _ => rfl) item xs

@[simp] theorem toList_editExpr? (e : Edit) (part : Nat) (x : Option Expr) :
    (Expr.edit? e part x).toList = Expr.editList e part 0 x.toList := by
  cases x <;> rfl

@[simp] theorem toList_editStmt? (e : Edit) (part : Nat) (s : Option Stmt) :
    (Stmt.edit? e part s).toList = Stmt.editList e part 0 s.toList := by
  cases s <;> rfl

@[simp] theorem toList_editIdent? (e : Edit) (part : Nat) (id : Option Ident) :
    (id.map fun id => id.edit (e.under [⟨part, 0⟩])).toList =
      Ident.editList e part 0 id.toList := by
  cases id <;> rfl

variable {order : Order} {e : Edit}

/-- What is made of an edited body keeps its calls. -/
theorem same_body (h : e.Moves order) (part : Nat) (body : List Stmt) :
    order.Same (editedCallees e part 0 (stmts body))
      ((stmts (e.body [] (Stmt.editList e part 0 body))).flatMap callees) := by
  rw [← flatMap_callees_stmts]
  exact (h [] _).same_callees

/-- The parts of an edited node have the calls of its parts, edited. -/
theorem same_parts (h : e.Moves order) (n : Node) :
    List.Forall₂ (fun part part' => order.Same (editedCallees e part.2 0 part.1)
      (part'.flatMap callees)) n.parts.zipIdx (n.edit e).parts := by
  have hbody := same_body h
  cases n with
  | name id => exact .nil
  | expr x => cases x <;> simp [parts, edit, Expr.edit, callees_parens, hbody]
  | stmt s => cases s <;> simp [parts, edit, Stmt.edit, hbody]
  | clause c => cases c <;> simp [parts, edit, Clause.edit, hbody]
  | field f => cases f; simp [parts, edit, Field.edit]
  | spec s => cases s <;> simp [parts, edit, Spec.edit]

/-- The children of an edited node have the calls of its children, edited. -/
theorem same_children (h : e.Moves order) (n : Node) :
    order.Same (n.slots.flatMap fun x => (x.2.edit (e.under [x.1])).callees)
      ((n.edit e).children.flatMap callees) := by
  have hparts := Order.same_flatMap_of_forall₂ (same_parts h n)
  rw [slots, number, List.flatMap_assoc, children, ← List.flatMap_id, List.flatMap_assoc]
  simp only [List.flatMap_map]
  exact hparts

end Node

/-- The calls of the exit function in an edited tree are those of the tree, each with its callee
edited and in its new parentheses. -/
theorem Node.callees_edit {order : Order} {e : Edit} (h : e.Moves order) (n : Node) :
    order.Same (n.exitCalls.map e.callee) (n.edit e).callees := by
  induction n using childInduction generalizing e with
  | h n ih =>
    have hbelow : order.Same (n.slots.flatMap fun x => x.2.exitCalls.map (e.under [x.1]).callee)
        (n.slots.flatMap fun x => (x.2.edit (e.under [x.1])).callees) := by
      apply Order.same_flatMap_of_forall₂
      exact List.forall₂_same.2 fun x hx =>
        ih x.2 (mem_children_of_mem_slots hx) (h.under [x.1])
    have hchildren := hbelow.trans (same_children h n)
    rw [exitCalls_eq, callees_eq, exitCallee?_edit, List.map_append, List.map_flatMap]
    refine Order.Same.append ?_ ?_
    · cases n.exitCallee? <;> simp
    · -- the place of a call under a child is that of the child and its own there
      simp only [List.map_map]
      exact hchildren

/-- What is reported for an edited body: the calls in the body, where their callees start now. -/
theorem exitsOf_apply {order : Order} {e : Edit} (h : e.Moves order) (body : List Stmt) :
    order.Same (exitsOf (e.apply body))
      ((Node.stmt (.block body)).exitCalls.map fun q => (e.callee q).start) := by
  have hcalls := (Node.callees_edit h (.stmt (.block body))).map Expr.start
  rw [List.map_map] at hcalls
  rw [exitsOf_eq, Node.exits_eq]
  exact hcalls.symm

/-- What is reported for a body is where its calls start. -/
theorem exitsOf_eq_exitCalls (body : List Stmt) :
    exitsOf body = (Node.stmt (.block body)).exitCalls.map fun q => q.2.start := by
  rw [exitsOf_eq, Node.exits_eq, ← Node.map_snd_exitCalls, List.map_map]
  rfl

/-! ## edits that keep the tokens -/

/-- Tokens stay where they are, and no parentheses are added. -/
def Edit.KeepsTokens (e : Edit) : Prop := ∀ p, (∀ pos, e.offset p pos = pos) ∧ e.parens p = []

theorem Edit.KeepsTokens.under {e : Edit} (h : e.KeepsTokens) (p : Path) :
    (e.under p).KeepsTokens := fun q => h (p ++ q)

/-- Each expression starts with a token that stays, or where its first child does. -/
theorem Edit.KeepsTokens.start_edit {e : Edit} (h : e.KeepsTokens) (x : Expr) :
    (x.edit e).start = x.start := by
  fun_induction Expr.start x generalizing e <;>
    simp_all [Expr.edit, Expr.start, Ident.edit, Expr.edit?, Expr.parens, (h []).1, (h []).2,
      h.under]

/-- A callee starts where it did if the tokens stay. -/
theorem Edit.KeepsTokens.start_callee {e : Edit} (h : e.KeepsTokens) (q : Path × Expr) :
    (e.callee q).start = q.2.start := by
  rw [Edit.callee, (h q.1).2]
  exact (h.under _).start_edit q.2

/-! ## reports -/

/-- A place for the body of a `main` function, in a file that counts of a package that is
checked. -/
structure Site where
  package : Package
  file : SourceFile
  earlier : List SourceFile
  later : List SourceFile
  above : List Decl
  below : List Decl
  isMain : package.name = ascii "main"
  notOwn : ¬ ascii "/cmd/staticlint" <:+ package.path
  counts : ¬ file.Skipped

namespace Site

def fillFile (s : Site) (body : List Stmt) : SourceFile :=
  { s.file with decls := s.above ++ .func (ascii "main") false (some body) :: s.below }

/-- The package with a body put in the place. -/
def fill (s : Site) (body : List Stmt) : Package :=
  { s.package with files := s.earlier ++ s.fillFile body :: s.later }

def report (s : Site) (offset : Int) : Report := ⟨s.file.name, offset⟩

def reportsAbove (s : Site) : List Report :=
  s.earlier.flatMap SourceFile.reports ++ (s.above.flatMap Decl.exits).map s.report

def reportsBelow (s : Site) : List Report :=
  (s.below.flatMap Decl.exits).map s.report ++ s.later.flatMap SourceFile.reports

/-- The reports of a package are those of a body and those around it. -/
theorem reports_fill (s : Site) (body : List Stmt) :
    (s.fill body).reports =
      s.reportsAbove ++ (exitsOf body).map s.report ++ s.reportsBelow := by
  have hchecked : (s.fill body).isChecked = true :=
    Package.isChecked_iff.2 ⟨s.isMain, s.notOwn⟩
  -- the declarations have no say in whether a file counts
  have hskipped : ¬ (s.fillFile body).isSkipped = true := fun h =>
    s.counts (SourceFile.isSkipped_iff.1 h)
  have hfile : (s.fillFile body).reports =
      (s.above.flatMap Decl.exits ++ exitsOf body ++ s.below.flatMap Decl.exits).map
        s.report := by
    have hmain : (Decl.func (ascii "main") false (some body)).exits = exitsOf body := by
      rw [Decl.exits, Decl.mainBody?_eq_some.2 rfl]
      rfl
    rw [SourceFile.reports_eq, if_neg hskipped, ← hmain, List.append_assoc, ← List.flatMap_cons,
      ← List.flatMap_append]
    rfl
  rw [Package.reports, if_pos hchecked, fill, List.flatMap_append, List.flatMap_cons, hfile]
  simp [reportsAbove, reportsBelow]

end Site

/-- **Neither parentheses nor nesting hide a call.**  The calls of the exit function in a body are
reported one by one.  If callees are put in parentheses, anywhere in the body and however many, the
same calls are reported in the same order, each where its callee starts now.  If statements are
moved under others as well, in any bodies in the body, no report is added and none is lost: the
order stays if the statements that are moved together stood next to each other, and the reports
themselves stay if the tokens do. -/
theorem calls_not_hidden (s : Site) (body : List Stmt) :
    let calls := (Node.stmt (.block body)).exitCalls
    (∀ p callee, (p, callee) ∈ calls ↔ ∃ args,
      Node.Descends (.stmt (.block body)) p (.expr (.call callee args)) ∧ callee.CallsExit) ∧
    calls.Pairwise (fun a b => List.Lex (· < ·) a.1 b.1) ∧
    (s.fill body).reports =
      s.reportsAbove ++ calls.map (fun q => s.report q.2.start) ++ s.reportsBelow ∧
    (∀ e : Edit, (∀ p b, e.body p b = b) → (s.fill (e.apply body)).reports =
      s.reportsAbove ++ calls.map (fun q => s.report (e.callee q).start) ++ s.reportsBelow) ∧
    ∀ order, ∀ e : Edit, e.Moves order →
      order.Same (s.fill (e.apply body)).reports
        (s.reportsAbove ++ calls.map (fun q => s.report (e.callee q).start) ++
          s.reportsBelow) ∧
      (e.KeepsTokens → order.Same (s.fill (e.apply body)).reports (s.fill body).reports) := by
  intro calls
  have hmoved {order : Order} {e : Edit} (h : e.Moves order) :
      order.Same (s.fill (e.apply body)).reports
        (s.reportsAbove ++ calls.map (fun q => s.report (e.callee q).start) ++
          s.reportsBelow) := by
    have hexits := (exitsOf_apply h body).map s.report
    rw [List.map_map] at hexits
    rw [s.reports_fill]
    exact ((Order.Same.refl _).append hexits).append (Order.Same.refl _)
  have hplain : (s.fill body).reports =
      s.reportsAbove ++ calls.map (fun q => s.report q.2.start) ++ s.reportsBelow := by
    rw [s.reports_fill, exitsOf_eq_exitCalls, List.map_map]
    rfl
  refine ⟨fun p callee => Node.mem_exitCalls, Node.pairwise_exitCalls _, hplain, ?_, ?_⟩
  · intro e hbody
    have hmoves : e.Moves .kept := fun p b => (hbody p b).symm ▸ .stay
    exact hmoved hmoves
  · intro order e h
    refine ⟨hmoved h, fun htokens => ?_⟩
    have hreports := hmoved h
    simpa only [htokens.start_callee, ← hplain] using hreports

/-- The callee of the first call is put in two parentheses, and every body is moved into a function
that is deferred. -/
def wrapAndDefer : Edit where
  offset _ pos := pos
  parens p := if p = [⟨0, 0⟩, ⟨0, 0⟩] then [28, 29] else []
  body _ b := [.deferred (.call (.function (.funcType 5 [] [] []) b) [])]

def toolSite : Site where
  package := tool [] []
  file := toolFile [] []
  earlier := []
  later := []
  above := []
  below := []
  isMain := rfl
  notOwn := by
    change ¬ ascii "/cmd/staticlint" <:+ ascii "tool"
    decide
  counts h := by
    have hs : (toolFile [] []).isSkipped = false := rfl
    rw [SourceFile.isSkipped_iff.2 h] at hs
    contradiction

theorem exitCalls_exitBy (qualifier : Ident) {exit : Object}
    (h : (Node.expr (.call (.selector (.ident qualifier) ⟨33, ascii "Exit", some exit⟩)
      [.literal 38])).callsExit = true) :
    (Node.stmt (.block (exitBy qualifier exit))).exitCalls =
      [([⟨0, 0⟩, ⟨0, 0⟩], .selector (.ident qualifier) ⟨33, ascii "Exit", some exit⟩)] := by
  simp [exitBy, Node.exitCalls_eq (.stmt _), Node.exitCalls_eq (.expr _),
    Node.exitCalls_eq (.name _), Node.exitCallee?, Node.callee?, h, Node.slots, Node.number,
    Node.parts, Node.stmts, Node.exprs]

/-- The call that was reported at 30 is reported at its new parenthesis. -/
theorem calls_not_hidden_deferred :
    wrapAndDefer.Moves .kept ∧
    (toolSite.fill (exitOfImport (ascii "os"))).reports = [⟨ascii "main.go", 30⟩] ∧
    (toolSite.fill (wrapAndDefer.apply (exitOfImport (ascii "os")))).reports =
      [⟨ascii "main.go", 28⟩] := by
  have htype : (Node.expr (.funcType 5 [] [] [])).Quiet := by
    rw [Node.quiet_iff, Node.callees_eq]
    rfl
  have hmoves : wrapAndDefer.Moves .kept := fun p b =>
    @Moved.move .kept b [] b [] _ (by simp [Order.Same])
      (.call (by simp) (by simpa [Node.exprs] using htype))
  obtain ⟨-, -, hplain, -, hmoved⟩ := calls_not_hidden toolSite (exitOfImport (ascii "os"))
  have hdeferred := (hmoved .kept wrapAndDefer hmoves).1
  rw [exitOfImport, exitCalls_exitBy _ rfl] at hplain hdeferred
  exact ⟨hmoves, hplain, hdeferred⟩

end ExitCheck

end ArgLine
