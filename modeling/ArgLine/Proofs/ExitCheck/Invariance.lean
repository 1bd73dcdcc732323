import Mathlib.Logic.Relation
import ArgLine.Proofs.ExitCheck.Reports

/-!
# ArgLine.Proofs.ExitCheck.Invariance

What the reports of a package do not depend on.

* `Stmt.unnamed` is a statement without the names that its identifiers are written
  with.  Two statements that are the same without them differ in nothing but how
  identifiers and imported packages are called.
* `SourceFile.Change` lists what may be changed in a file, one rule for each kind
  of change, and `Package.Change` changes one file of a package.
* Each change keeps the reports (`SourceFile.Change.reports_eq`), so any number of
  changes and of their undoings does.

The walk of a tree commutes with taking the names away (`preorder_unnamed`), and a
call calls the same without them (`callsExit_unnamed`).  Everything else is about lists of
comments and of declarations.
-/

namespace ArgLine

namespace ExitCheck

/-! ## names -/

/-- An object without its name if it is an imported package: that is called what its file calls
it. -/
def Object.unnamed (o : Object) : Object :=
  if o.kind = .pkgName then { o with name := [] } else o

/-- An identifier without the name that it is written with. -/
def Ident.unnamed (id : Ident) : Ident :=
  { id with name := [], object := id.object.map Object.unnamed }

mutual

/-- An expression without the names that its identifiers are written with. -/
def Expr.unnamed : Expr → Expr
  | .ident id => .ident id.unnamed
  | .selector x sel => .selector x.unnamed sel.unnamed
  | .call callee args => .call callee.unnamed (Expr.unnamedList args)
  | .paren pos x => .paren pos x.unnamed
  | .index x y byType => .index x.unnamed y.unnamed byType
  | .indexList x ys => .indexList x.unnamed (Expr.unnamedList ys)
  | .function type body => .function type.unnamed (Stmt.unnamedList body)
  | .literal pos => .literal pos
  | .unary pos x => .unary pos x.unnamed
  | .star pos x => .star pos x.unnamed
  | .binary x y => .binary x.unnamed y.unnamed
  | .keyValue x y => .keyValue x.unnamed y.unnamed
  | .composite pos type elements =>
    .composite pos (Expr.unnamed? type) (Expr.unnamedList elements)
  | .slice x low high max =>
    .slice x.unnamed (Expr.unnamed? low) (Expr.unnamed? high) (Expr.unnamed? max)
  | .assertion x type => .assertion x.unnamed (Expr.unnamed? type)
  | .ellipsis pos type => .ellipsis pos (Expr.unnamed? type)
  | .arrayType pos length element => .arrayType pos (Expr.unnamed? length) element.unnamed
  | .structType pos members => .structType pos (Field.unnamedList members)
  | .funcType pos typeParams params results =>
    .funcType pos (Field.unnamedList typeParams) (Field.unnamedList params)
      (Field.unnamedList results)
  | .interfaceType pos methods => .interfaceType pos (Field.unnamedList methods)
  | .mapType pos key value => .mapType pos key.unnamed value.unnamed
  | .chanType pos value => .chanType pos value.unnamed
  | .bad pos => .bad pos

def Expr.unnamed? : Option Expr → Option Expr
  | none => none
  | some x => some x.unnamed

def Expr.unnamedList : List Expr → List Expr
  | [] => []
  | x :: xs => x.unnamed :: Expr.unnamedList xs

def Stmt.unnamed : Stmt → Stmt
  | .expr x => .expr x.unnamed
  | .deferred x => .deferred x.unnamed
  | .go x => .go x.unnamed
  | .block body => .block (Stmt.unnamedList body)
  | .branch init cond body otherwise =>
    .branch (Stmt.unnamed? init) cond.unnamed (Stmt.unnamedList body) (Stmt.unnamed? otherwise)
  | .loop init cond post body =>
    .loop (Stmt.unnamed? init) (Expr.unnamed? cond) (Stmt.unnamed? post) (Stmt.unnamedList body)
  | .range key value x body =>
    .range (Expr.unnamed? key) (Expr.unnamed? value) x.unnamed (Stmt.unnamedList body)
  | .switch init tag cases =>
    .switch (Stmt.unnamed? init) (Expr.unnamed? tag) (Clause.unnamedList cases)
  | .typeSwitch init assign cases =>
    .typeSwitch (Stmt.unnamed? init) assign.unnamed (Clause.unnamedList cases)
  | .select cases => .select (Clause.unnamedList cases)
  | .ret results => .ret (Expr.unnamedList results)
  | .assign lhs rhs => .assign (Expr.unnamedList lhs) (Expr.unnamedList rhs)
  | .incDec x => .incDec x.unnamed
  | .send x y => .send x.unnamed y.unnamed
  | .label id x => .label id.unnamed x.unnamed
  | .jump label => .jump (label.map Ident.unnamed)
  | .declare specs => .declare (Spec.unnamedList specs)
  | .empty => .empty
  | .bad => .bad

def Stmt.unnamed? : Option Stmt → Option Stmt
  | none => none
  | some s => some s.unnamed

def Stmt.unnamedList : List Stmt → List Stmt
  | [] => []
  | s :: body => s.unnamed :: Stmt.unnamedList body

def Clause.unnamed : Clause → Clause
  | .values list body => .values (Expr.unnamedList list) (Stmt.unnamedList body)
  | .comm op body => .comm (Stmt.unnamed? op) (Stmt.unnamedList body)

def Clause.unnamedList : List Clause → List Clause
  | [] => []
  | c :: cases => c.unnamed :: Clause.unnamedList cases

def Field.unnamed : Field → Field
  | .mk ids type tag => .mk (ids.map Ident.unnamed) (Expr.unnamed? type) (Expr.unnamed? tag)

def Field.unnamedList : List Field → List Field
  | [] => []
  | f :: members => f.unnamed :: Field.unnamedList members

def Spec.unnamed : Spec → Spec
  | .values ids type values =>
    .values (ids.map Ident.unnamed) (Expr.unnamed? type) (Expr.unnamedList values)
  | .type id params type => .type id.unnamed (Field.unnamedList params) type.unnamed

def Spec.unnamedList : List Spec → List Spec
  | [] => []
  | s :: specs => s.unnamed :: Spec.unnamedList specs

end

def Node.unnamed : Node → Node
  | .name id => .name id.unnamed
  | .expr x => .expr x.unnamed
  | .stmt s => .stmt s.unnamed
  | .clause c => .clause c.unnamed
  | .field f => .field f.unnamed
  | .spec s => .spec s.unnamed

@[simp] theorem Expr.unnamed?_eq_map (x : Option Expr) :
    Expr.unnamed? x = x.map Expr.unnamed := by
  cases x <;> simp [Expr.unnamed?]

@[simp] theorem Expr.unnamedList_eq_map (xs : List Expr) :
    Expr.unnamedList xs = xs.map Expr.unnamed := by
  induction xs with
  | nil => simp [Expr.unnamedList]
  | cons x xs ih => simp [Expr.unnamedList, ih]

@[simp] theorem Stmt.unnamed?_eq_map (s : Option Stmt) :
    Stmt.unnamed? s = s.map Stmt.unnamed := by
  cases s <;> simp [Stmt.unnamed?]

@[simp] theorem Stmt.unnamedList_eq_map (body : List Stmt) :
    Stmt.unnamedList body = body.map Stmt.unnamed := by
  induction body with
  | nil => simp [Stmt.unnamedList]
  | cons s body ih => simp [Stmt.unnamedList, ih]

@[simp] theorem Clause.unnamedList_eq_map (cases : List Clause) :
    Clause.unnamedList cases = cases.map Clause.unnamed := by
  induction cases with
  | nil => simp [Clause.unnamedList]
  | cons c cases ih => simp [Clause.unnamedList, ih]

@[simp] theorem Field.unnamedList_eq_map (members : List Field) :
    Field.unnamedList members = members.map Field.unnamed := by
  induction members with
  | nil => simp [Field.unnamedList]
  | cons f members ih => simp [Field.unnamedList, ih]

@[simp] theorem Spec.unnamedList_eq_map (specs : List Spec) :
    Spec.unnamedList specs = specs.map Spec.unnamed := by
  induction specs with
  | nil => simp [Spec.unnamedList]
  | cons s specs ih => simp [Spec.unnamedList, ih]

/-! ## the walk without names -/

namespace Node

@[simp] theorem map_unnamed_names (ids : List Ident) :
    (names ids).map unnamed = names (ids.map Ident.unnamed) := by
  simp [names, unnamed, Function.comp_def]

@[simp] theorem map_unnamed_exprs (xs : List Expr) :
    (exprs xs).map unnamed = exprs (xs.map Expr.unnamed) := by
  simp [exprs, unnamed, Function.comp_def]

@[simp] theorem map_unnamed_stmts (body : List Stmt) :
    (stmts body).map unnamed = stmts (body.map Stmt.unnamed) := by
  simp [stmts, unnamed, Function.comp_def]

@[simp] theorem map_unnamed_clauses (cases : List Clause) :
    (clauses cases).map unnamed = clauses (cases.map Clause.unnamed) := by
  simp [clauses, unnamed, Function.comp_def]

@[simp] theorem map_unnamed_fields (members : List Field) :
    (fields members).map unnamed = fields (members.map Field.unnamed) := by
  simp [fields, unnamed, Function.comp_def]

/-- The parts of a node without names are its parts, without names. -/
theorem parts_unnamed (n : Node) : n.unnamed.parts = n.parts.map fun part => part.map unnamed := by
  cases n with
  | name id => rfl
  | expr x => cases x <;> simp [unnamed, Expr.unnamed, parts, Option.toList_map]
  | stmt s => cases s <;> simp [unnamed, Stmt.unnamed, parts, Option.toList_map]
  | clause c => cases c <;> simp [unnamed, Clause.unnamed, parts, Option.toList_map]
  | field f => cases f; simp [unnamed, Field.unnamed, parts, Option.toList_map]
  | spec s => cases s <;> simp [unnamed, Spec.unnamed, parts, Option.toList_map]

/-- Under a node without names stands what stood there, without names. -/
theorem children_unnamed (n : Node) : n.unnamed.children = n.children.map unnamed := by
  rw [children, children, parts_unnamed, List.map_flatten]

/-- The walk meets the same nodes, without names. -/
theorem preorder_unnamed (n : Node) : n.unnamed.preorder = n.preorder.map unnamed := by
  induction n using childInduction with
  | h n ih =>
    rw [preorder_eq, preorder_eq n, children_unnamed, List.map_cons, List.flatMap_map,
      List.map_flatMap]
    congr 1
    exact List.flatMap_congr ih

end Node

namespace Expr

theorem start_unnamed (x : Expr) : x.unnamed.start = x.start := by
  fun_induction start x <;> simp_all [unnamed, start, Ident.unnamed]

theorem unparen_unnamed (x : Expr) : x.unnamed.unparen = x.unparen.unnamed := by
  fun_induction unparen x with
  | case1 pos x ih => simpa only [unnamed, unparen] using ih
  | case2 x hx => cases x <;> simp_all [unnamed, unparen]

theorem generic_unnamed (x : Expr) : x.unnamed.generic = x.generic.unnamed := by
  fun_cases generic x with
  | case1 x y => simp only [unnamed, generic]
  | case2 x ys => simp only [unnamed, generic]
  | case3 x hi hl => cases x <;> simp_all [unnamed, generic]

/-- An expression denotes the object that it did. -/
theorem denoted?_unnamed (x : Expr) :
    x.unnamed.denoted? = x.denoted?.map Object.unnamed := by
  cases x <;> simp [unnamed, denoted?, Ident.unnamed]

end Expr

theorem Object.kind_unnamed (o : Object) : o.unnamed.kind = o.kind := by
  unfold unnamed
  split <;> rfl

/-- An imported package is not a function, so its name does not make it one. -/
theorem Object.isExit_unnamed (o : Object) : o.unnamed.isExit = o.isExit := by
  unfold unnamed
  split
  · next h => simp [isExit, h]
  · rfl

theorem Expr.any_isExit_unnamed (callee : Expr) :
    callee.unnamed.target?.any Object.isExit = callee.target?.any Object.isExit := by
  simp only [target?, unparen_unnamed, generic_unnamed, denoted?_unnamed, Option.filter_map,
    Option.any_map, Function.comp_def, Object.kind_unnamed, Object.isExit_unnamed]

/-- A call of the exit function is one without names, and no other node becomes one. -/
theorem Node.callsExit_unnamed (n : Node) : n.unnamed.callsExit = n.callsExit := by
  cases n with
  | expr x =>
    cases x with
    | call callee args =>
      simpa only [unnamed, Expr.unnamed, callsExit] using callee.any_isExit_unnamed
    | _ => simp [unnamed, Expr.unnamed, callsExit]
  | _ => simp [unnamed, callsExit]

theorem Node.start?_unnamed (n : Node) : n.unnamed.start? = n.start? := by
  cases n <;> simp [unnamed, start?, Expr.start_unnamed]

/-- The same calls are found at the same places. -/
theorem Node.exits_unnamed (n : Node) : n.unnamed.exits = n.exits := by
  simp only [exits, preorder_unnamed, List.filter_map, List.filterMap_map, Function.comp_def,
    callsExit_unnamed, start?_unnamed]

/-- The calls in a body are those in the body without names. -/
theorem exitsOf_unnamed (body : List Stmt) : exitsOf (body.map Stmt.unnamed) = exitsOf body := by
  simp only [exitsOf, ← Node.map_unnamed_stmts, List.flatMap_map, Node.exits_unnamed]

/-! ## changes -/

/-- What may be changed in a file.  Where something is put in, to take it out is the same change
undone. -/
inductive SourceFile.Change : SourceFile → SourceFile → Prop where
  /-- The body of a function that is not named `main`, or of a method. -/
  | body {f : SourceFile} {ds es name recv} (b b' : Option (List Stmt))
      (h : name ≠ ascii "main" ∨ recv = true) :
      Change { f with decls := ds ++ .func name recv b :: es }
        { f with decls := ds ++ .func name recv b' :: es }
  /-- A declaration of variables with their initialisers, of constants or of types. -/
  | declare {f : SourceFile} {ds es} (specs : List Spec) :
      Change { f with decls := ds ++ es } { f with decls := ds ++ .declare specs :: es }
  /-- A function without a body. -/
  | bodiless {f : SourceFile} {ds es} (name : Bytes) (recv : Bool) :
      Change { f with decls := ds ++ es } { f with decls := ds ++ .func name recv none :: es }
  /-- A comment after the package clause, in a group that is in the order of the source. -/
  | comment {f : SourceFile} {gs hs us vs c} (late : f.packagePos < c.pos)
      (ordered : (us ++ c :: vs).Pairwise fun a b => a.pos ≤ b.pos) :
      Change { f with comments := gs ++ (us ++ vs) :: hs }
        { f with comments := gs ++ (us ++ c :: vs) :: hs }
  /-- A comment after the package clause, in a group of its own. -/
  | group {f : SourceFile} {gs hs c} (late : f.packagePos < c.pos) :
      Change { f with comments := gs ++ hs } { f with comments := gs ++ [c] :: hs }
  /-- All declarations of a file that does not count. -/
  | skipped {f : SourceFile} (ds : List Decl) (h : f.Skipped) : Change f { f with decls := ds }
  /-- The names that are written in the body of a `main` function, but not what they denote. -/
  | names {f : SourceFile} {ds es} {body body' : List Stmt}
      (h : body.map Stmt.unnamed = body'.map Stmt.unnamed) :
      Change { f with decls := ds ++ .func (ascii "main") false (some body) :: es }
        { f with decls := ds ++ .func (ascii "main") false (some body') :: es }

/-- A change of one file of a package. -/
inductive Package.Change : Package → Package → Prop where
  | file {p : Package} {fs gs f f'} (h : SourceFile.Change f f') :
      Change { p with files := fs ++ f :: gs } { p with files := fs ++ f' :: gs }

/-! ## what a change keeps -/

namespace SourceFile

/-- Declarations for which the same is reported may be exchanged. -/
theorem reports_congr_decls (f : SourceFile) {ds es : List Decl}
    (h : ds.flatMap Decl.exits = es.flatMap Decl.exits) :
    { f with decls := ds }.reports = { f with decls := es }.reports := by
  rw [reports_eq, reports_eq]
  simp only [h]
  rfl

/-- Comments may be exchanged if the file is generated with both or with neither. -/
theorem reports_congr_comments (f : SourceFile) {gs hs : List (List Comment)}
    (h : { f with comments := gs }.isGenerated = { f with comments := hs }.isGenerated) :
    { f with comments := gs }.reports = { f with comments := hs }.reports := by
  rw [reports_eq, reports_eq, isSkipped, isSkipped, h]
  rfl

/-- A comment after the package clause does not add to those before it: nor does it hide any,
since what comes after it in its group is late, too. -/
theorem leading_insert {f : SourceFile} {us vs : List Comment} {c : Comment}
    (late : f.packagePos < c.pos) (ordered : (us ++ c :: vs).Pairwise fun a b => a.pos ≤ b.pos) :
    f.leading (us ++ c :: vs) = f.leading (us ++ vs) := by
  have hc : ¬ c.pos ≤ f.packagePos := Int.not_le.2 late
  have hvs : vs.takeWhile (·.pos ≤ f.packagePos) = [] := by
    cases vs with
    | nil => rfl
    | cons v vs =>
      have hcv : c.pos ≤ v.pos := by
        have htail := (List.pairwise_append.1 ordered).2.1
        exact List.rel_of_pairwise_cons htail List.mem_cons_self
      exact List.takeWhile_cons_of_neg (by simpa using Int.lt_of_lt_of_le late hcv)
  unfold leading
  rw [List.takeWhile_append, List.takeWhile_append, hvs,
    List.takeWhile_cons_of_neg (by simpa using hc)]

/-- A change of a file keeps its reports. -/
theorem Change.reports_eq {f f' : SourceFile} (h : Change f f') : f.reports = f'.reports := by
  cases h with
  | @body f ds es name recv b b' h =>
    have hnone (b : Option (List Stmt)) : (Decl.func name recv b).exits = [] := by
      have hn : ¬ (name = mainName ∧ recv = false) := by
        rintro ⟨hname, hrecv⟩
        rcases h with h | h
        · exact h hname
        · simp [hrecv] at h
      rw [Decl.exits, Decl.mainBody?, if_neg hn]
      rfl
    apply reports_congr_decls
    simp only [List.flatMap_append, List.flatMap_cons, hnone]
  | declare specs =>
    apply reports_congr_decls
    simp [Decl.exits, Decl.mainBody?]
  | bodiless name recv =>
    apply reports_congr_decls
    simp [Decl.exits, Decl.mainBody?]
  | comment late ordered =>
    apply reports_congr_comments
    have hlead := leading_insert late ordered
    simp only [isGenerated, leading, List.any_append, List.any_cons] at hlead ⊢
    rw [hlead]
  | group late =>
    apply reports_congr_comments
    simp [isGenerated, leading, late]
  | skipped ds h =>
    have hs : f.isSkipped = true := isSkipped_iff.2 h
    rw [SourceFile.reports_eq, SourceFile.reports_eq, if_pos hs]
    exact (if_pos hs).symm
  | names h =>
    apply reports_congr_decls
    have he := congrArg exitsOf h
    rw [exitsOf_unnamed, exitsOf_unnamed] at he
    simp [Decl.exits, Decl.mainBody?_eq_some.2, he]

end SourceFile

/-- A change of one file keeps the reports of the package. -/
theorem Package.Change.reports_eq {p q : Package} (h : Change p q) : p.reports = q.reports := by
  cases h with
  | file h =>
    simp only [Package.reports, List.flatMap_append, List.flatMap_cons, h.reports_eq]
    rfl

/-- Any number of changes, and of changes undone, keeps the reports. -/
theorem Package.reports_eq_of_eqvGen {p q : Package} (h : Relation.EqvGen Change p q) :
    p.reports = q.reports := by
  induction h with
  | rel p q h => exact h.reports_eq
  | refl p => rfl
  | symm p q _ ih => exact ih.symm
  | trans p q r _ _ ih ih' => exact ih.trans ih'

/-! ## calls by a qualifier -/

/-- At a place in a package stands a call that is looked at: in the body of a `main` function, in a
file that counts, of a package that is checked. -/
structure Package.HasCall (p : Package) (o : Occurrence) (f : SourceFile) (callee : Expr)
    (args : List Expr) : Prop where
  name : p.name = ascii "main"
  path : ¬ ascii "/cmd/staticlint" <:+ p.path
  file : p.files[o.file]? = some f
  counts : ¬ f.Skipped
  body : ∃ body, f.decls[o.decl]? = some (.func (ascii "main") false (some body)) ∧
    Node.Descends (.stmt (.block body)) o.path (.expr (.call callee args))

/-- Whether a call is reported is settled by what its callee calls. -/
theorem Package.HasCall.mem_findings {p : Package} {o : Occurrence} {f : SourceFile}
    {callee : Expr} {args : List Expr} (h : p.HasCall o f callee args) {r : Report} :
    (o, r) ∈ p.findings ↔ r = ⟨f.name, callee.start⟩ ∧ callee.CallsExit := by
  obtain ⟨body, hdecl, hcall⟩ := h.body
  rw [Package.mem_findings]
  constructor
  · rintro ⟨-, -, hfile, -, hdecl', hcall', hexit⟩
    -- a place holds one file, one declaration and one node, so it is the same call
    obtain rfl := Option.some.inj (h.file.symm.trans hfile)
    obtain ⟨-, -, hbody⟩ := Decl.func.inj (Option.some.inj (hdecl.symm.trans hdecl'))
    obtain rfl := Option.some.inj hbody
    obtain ⟨rfl, rfl⟩ := Expr.call.inj (Node.expr.inj (hcall.unique hcall'))
    exact ⟨rfl, hexit⟩
  · rintro ⟨rfl, hexit⟩
    exact .call h.name h.path h.file h.counts hdecl hcall hexit

/-- A selector calls what the name after its dot denotes, whatever stands before the dot. -/
theorem Expr.callsExit_selector {x : Expr} {sel : Ident} :
    (selector x sel).CallsExit ↔ ∃ d, sel.object = some d ∧
      (d.kind = .func ∨ d.kind = .method) ∧ d.package = some (ascii "os") ∧
        d.name = ascii "Exit" := by
  simp only [CallsExit, calls_iff, unparen, generic, denoted?]

/-- **The check depends on what it should.**  Two packages that come from each other by any number
of changes of the listed kinds, made or undone, have the same reports.  And whether a call of
something by a qualifier is reported is settled by the object that the name after the dot denotes:
it is if that is the exit function, whatever the qualifier is called, and it is not if the qualifier
is called `os` but the object is another. -/
theorem reports_invariant (p q : Package) :
    (Relation.EqvGen Package.Change p q → p.reports = q.reports) ∧
    p.reports = p.findings.map Prod.snd ∧
    ∀ o f x sel args, p.HasCall o f (.selector x sel) args → ∀ r,
      (o, r) ∈ p.findings ↔ r = ⟨f.name, x.start⟩ ∧
        ∃ d, sel.object = some d ∧ (d.kind = .func ∨ d.kind = .method) ∧
          d.package = some (ascii "os") ∧ d.name = ascii "Exit" := by
  refine ⟨Package.reports_eq_of_eqvGen, p.map_snd_findings.symm, ?_⟩
  intro o f x sel args hcall r
  rw [hcall.mem_findings, Expr.callsExit_selector]
  rfl

/-- A body that calls `Exit` by a qualifier. -/
def exitBy (qualifier : Ident) (exit : Object) : List Stmt :=
  [.expr (.call (.selector (.ident qualifier) ⟨33, ascii "Exit", some exit⟩) [.literal 38])]

/-- A body that calls the exit function, with `os` imported by a name. -/
def exitOfImport (name : Bytes) : List Stmt :=
  exitBy ⟨30, name, some ⟨.pkgName, some (ascii "tool"), name⟩⟩
    ⟨.func, some (ascii "os"), ascii "Exit"⟩

/-- A body that calls the method `Exit` of a variable named `os`. -/
def exitOfVariable : List Stmt :=
  exitBy ⟨30, ascii "os", some ⟨.var, some (ascii "tool"), ascii "os"⟩⟩
    ⟨.method, some (ascii "tool"), ascii "Exit"⟩

/-- A function or a method named `main`. -/
def mainWith (isMethod : Bool) (body : List Stmt) : Decl :=
  .func (ascii "main") isMethod (some body)

/-- A comment that marks a generated file, where it stands too late to do so. -/
def lateMark : Comment := ⟨50, ascii "// Code generated by hand. DO NOT EDIT."⟩

def toolFile (comments : List (List Comment)) (decls : List Decl) : SourceFile :=
  ⟨ascii "main.go", 0, comments, [ascii "\"os\""], decls⟩

def tool (comments : List (List Comment)) (decls : List Decl) : Package :=
  ⟨ascii "main", ascii "tool", [toolFile comments decls]⟩

theorem eqvGen_tool {gs hs : List (List Comment)} {ds es : List Decl}
    (h : (toolFile gs ds).Change (toolFile hs es)) :
    Relation.EqvGen Package.Change (tool gs ds) (tool hs es) :=
  .rel _ _ (@Package.Change.file (tool gs ds) [] [] _ _ h)

theorem hasCall_tool {qualifier : Ident} {exit : Object} :
    (tool [] [mainWith false (exitBy qualifier exit)]).HasCall ⟨0, 0, [⟨0, 0⟩, ⟨0, 0⟩]⟩
      (toolFile [] [mainWith false (exitBy qualifier exit)])
      (.selector (.ident qualifier) ⟨33, ascii "Exit", some exit⟩) [.literal 38] where
  name := rfl
  path := by
    change ¬ ascii "/cmd/staticlint" <:+ ascii "tool"
    decide
  file := rfl
  counts h := by
    have hs : (toolFile [] [mainWith false (exitBy qualifier exit)]).isSkipped = false := rfl
    rw [SourceFile.isSkipped_iff.2 h] at hs
    contradiction
  body := ⟨_, rfl, .under (.blockItem rfl) (.under .expression .here)⟩

/-- A program that exits is reported like what becomes of it when `os` is imported by another name,
a method `main` that exits is added and a late comment says that the file is generated.  The call by
the other name is reported, and one by a variable named `os` is not. -/
theorem reports_invariant_tool :
    (tool [] [mainWith false (exitOfImport (ascii "os"))]).reports =
      (tool [[lateMark]] [mainWith false (exitOfImport (ascii "sy")),
          mainWith true (exitOfImport (ascii "sy"))]).reports ∧
    (⟨0, 0, [⟨0, 0⟩, ⟨0, 0⟩]⟩, ⟨ascii "main.go", 30⟩) ∈
      (tool [] [mainWith false (exitOfImport (ascii "sy"))]).findings ∧
    ∀ r, (⟨0, 0, [⟨0, 0⟩, ⟨0, 0⟩]⟩, r) ∉ (tool [] [mainWith false exitOfVariable]).findings := by
  have hnames := eqvGen_tool (@SourceFile.Change.names (toolFile [] []) [] []
    (exitOfImport (ascii "os")) (exitOfImport (ascii "sy")) (by
      simp [exitOfImport, exitBy, Stmt.unnamed, Expr.unnamed, Ident.unnamed, Object.unnamed]))
  -- the method is added without a body and then given one
  have hmethod := eqvGen_tool (@SourceFile.Change.bodiless (toolFile [] [])
    [mainWith false (exitOfImport (ascii "sy"))] [] (ascii "main") true)
  have hbody := eqvGen_tool (@SourceFile.Change.body (toolFile [] [])
    [mainWith false (exitOfImport (ascii "sy"))] [] (ascii "main") true none
    (some (exitOfImport (ascii "sy"))) (.inr rfl))
  have hcomment := eqvGen_tool (@SourceFile.Change.group (toolFile []
      [mainWith false (exitOfImport (ascii "sy")), mainWith true (exitOfImport (ascii "sy"))])
    [] [] lateMark (by decide))
  refine ⟨(reports_invariant _ _).1 ?_, ?_, ?_⟩
  · exact hnames.trans _ _ _ (hmethod.trans _ _ _ (hbody.trans _ _ _ hcomment))
  · exact ((reports_invariant _ (tool [] [])).2.2 _ _ _ _ _ hasCall_tool _).2
      ⟨rfl, _, rfl, .inl rfl, rfl, rfl⟩
  · intro r hr
    obtain ⟨-, d, hd, -, hos, -⟩ :=
      ((reports_invariant _ (tool [] [])).2.2 _ _ _ _ _ hasCall_tool r).1 hr
    obtain rfl := Option.some.inj hd
    revert hos
    decide

end ExitCheck

end ArgLine
