import Mathlib.Data.List.TakeWhile
import ArgLine.ExitCheck.Package
import ArgLine.Proofs.ExitCheck.Paths
import ArgLine.Proofs.Text.Bytes

/-!
# ArgLine.Proofs.ExitCheck.Reports

The check is sound and complete, and reports in order.

`Offence p o r` says of one place in a package that a call stands there which must
be reported, and as what.  It speaks of rules only: of names and paths, of which
files count, of `Child` and `Descends` for what stands where, and of `Calls` for
what an expression calls.  The reports of a package are its offences, each once, in
the order of files, declarations and paths.
-/

namespace ArgLine

namespace ExitCheck

/-! ## what is called -/

namespace Expr

/-- An identifier or a selector, in any number of parentheses, that denotes an object. -/
inductive Denotes : Expr → Object → Prop where
  | ident {id o} (h : id.object = some o) : Denotes (.ident id) o
  | selector {x sel o} (h : sel.object = some o) : Denotes (.selector x sel) o
  | paren {pos x o} (h : Denotes x o) : Denotes (.paren pos x) o

/-- A callee calls an object: it denotes it, or instantiates by types what denotes it, in any
number of parentheses. -/
inductive Calls : Expr → Object → Prop where
  | plain {x o} (h : Denotes x o) : Calls x o
  | index {x y o} (h : Denotes x o) : Calls (.index x y true) o
  | indexList {x ys o} (h : Denotes x o) : Calls (.indexList x ys) o
  | paren {pos x o} (h : Calls x o) : Calls (.paren pos x) o

theorem denotes_of_denoted? {x : Expr} {o : Object} (h : x.denoted? = some o) : Denotes x o := by
  cases x with
  | ident id => exact .ident h
  | selector x sel => exact .selector h
  | _ => simp [denoted?] at h

/-- An expression denotes what is found in its parentheses. -/
theorem denotes_iff {x : Expr} {o : Object} : Denotes x o ↔ x.unparen.denoted? = some o := by
  constructor
  · intro h
    induction h with
    | ident h => exact h
    | selector h => exact h
    | paren _ ih => exact ih
  · fun_induction unparen x with
    | case1 pos x ih => exact fun h => .paren (ih h)
    | case2 x _ => exact denotes_of_denoted?

/-- What denotes an object by itself instantiates nothing and has no parentheses. -/
theorem unparen_generic_of_denoted? {x : Expr} {o : Object} (h : x.denoted? = some o) :
    x.generic.unparen = x := by
  cases x <;> simp_all [denoted?, generic, unparen]

theorem calls_of_generic {x : Expr} {o : Object} (h : Denotes x.generic o) : Calls x o := by
  unfold generic at h
  split at h
  · exact .index h
  · exact .indexList h
  · exact .plain h

/-- A callee calls what is found in its parentheses, or there after one instantiation. -/
theorem calls_iff {x : Expr} {o : Object} :
    Calls x o ↔ x.unparen.generic.unparen.denoted? = some o := by
  constructor
  · intro h
    induction h with
    | plain h =>
      have hd := denotes_iff.1 h
      rw [unparen_generic_of_denoted? hd, hd]
    | index h => exact denotes_iff.1 h
    | indexList h => exact denotes_iff.1 h
    | paren _ ih => exact ih
  · rw [← denotes_iff]
    fun_induction unparen x with
    | case1 pos x ih => exact fun h => .paren (ih h)
    | case2 x _ => exact calls_of_generic

/-- A callee calls the exit function: a function or method `Exit` of the package `os`. -/
def CallsExit (callee : Expr) : Prop :=
  ∃ o, callee.Calls o ∧ (o.kind = .func ∨ o.kind = .method) ∧
    o.package = some (ascii "os") ∧ o.name = ascii "Exit"

/-- The exit function is told by kind, package and name. -/
theorem isExit_iff {o : Object} : o.isExit = true ↔ (o.kind = .func ∨ o.kind = .method) ∧
    o.package = some (ascii "os") ∧ o.name = ascii "Exit" := by
  rw [Object.isExit, Bool.and_eq_true, Bool.and_eq_true, Bool.or_eq_true, decide_eq_true_iff,
    decide_eq_true_iff, decide_eq_true_iff, decide_eq_true_iff, and_assoc]
  rfl

theorem any_isExit_iff {callee : Expr} :
    callee.target?.any Object.isExit = true ↔ callee.CallsExit := by
  simp only [target?, Option.any_eq_true, Option.filter_eq_some_iff, ← calls_iff, isExit_iff]
  constructor
  · rintro ⟨o, ⟨hc, -⟩, ho⟩
    exact ⟨o, hc, ho⟩
  · rintro ⟨o, hc, ho⟩
    refine ⟨o, ⟨hc, ?_⟩, ho⟩
    -- neither kind is that of a type, so no conversion is meant
    rcases ho.1 with hk | hk <;> simp [hk]

end Expr

/-! ## which files count -/

namespace SourceFile

def InBuildCache (f : SourceFile) : Prop := ascii "/go-build/" <:+: f.name

/-- A line says that the file is generated. -/
def IsMark (line : Bytes) : Prop :=
  ∃ middle, line = ascii "// Code generated " ++ middle ++ ascii " DO NOT EDIT."

/-- A file is generated: a comment says so on a line of its own, and neither it nor one before it
in its group comes after the package clause. -/
def Generated (f : SourceFile) : Prop :=
  ∃ group ∈ f.comments, ∃ before c after, group = before ++ c :: after ∧
    (∀ d ∈ before ++ [c], d.pos ≤ f.packagePos) ∧
    ∃ line, Bytes.Between Bytes.newline line c.text ∧ IsMark line

def ImportsTesting (f : SourceFile) : Prop :=
  ∃ literal ∈ f.imports, Literal.unquote? literal = some (ascii "testing") ∨
    Literal.unquote? literal = some (ascii "testing/internal/testdeps")

/-- A file does not count. -/
def Skipped (f : SourceFile) : Prop := f.InBuildCache ∨ f.Generated ∨ f.ImportsTesting

/-- A line marks a generated file exactly if it has the two ends of a mark, one after the other. -/
theorem isMark_iff {line : Bytes} : isMark line = true ↔ IsMark line := by
  rw [isMark, Bool.and_eq_true, List.isPrefixOf_iff_prefix, List.isSuffixOf_iff_suffix]
  constructor
  · rintro ⟨⟨rest, rfl⟩, hs⟩
    rw [List.drop_left] at hs
    obtain ⟨middle, rfl⟩ := hs
    exact ⟨middle, by rw [List.append_assoc]; rfl⟩
  · rintro ⟨middle, rfl⟩
    rw [List.append_assoc]
    refine ⟨List.prefix_append _ _, ?_⟩
    have hd : (ascii "// Code generated " ++ (middle ++ ascii " DO NOT EDIT.")).drop
        markStart.length = middle ++ ascii " DO NOT EDIT." := List.drop_left
    rw [hd]
    exact List.suffix_append _ _

/-- The comments before the first that comes too late are those with none too late before them. -/
theorem mem_leading_iff {f : SourceFile} {group : List Comment} {c : Comment} :
    c ∈ f.leading group ↔ ∃ before after, group = before ++ c :: after ∧
      ∀ d ∈ before ++ [c], d.pos ≤ f.packagePos := by
  unfold leading
  constructor
  · intro h
    obtain ⟨before, rest, he⟩ := List.append_of_mem h
    refine ⟨before, rest ++ group.dropWhile (·.pos ≤ f.packagePos), ?_, ?_⟩
    · rw [← List.cons_append, ← List.append_assoc, ← he, List.takeWhile_append_dropWhile]
    · intro d hd
      have hmem : d ∈ group.takeWhile (·.pos ≤ f.packagePos) := by
        rw [he]
        simp only [List.mem_append, List.mem_cons] at hd ⊢
        tauto
      simpa using List.mem_takeWhile_imp hmem
  · rintro ⟨before, after, rfl, h⟩
    have happ : before ++ c :: after = (before ++ [c]) ++ after := by simp
    rw [happ, List.takeWhile_append_of_pos (by simpa using h)]
    simp

/-- A file is found to be generated exactly if a comment says so in time. -/
theorem isGenerated_iff {f : SourceFile} : f.isGenerated = true ↔ f.Generated := by
  simp only [isGenerated, List.any_eq_true, Generated, mem_leading_iff, isMark_iff,
    Bytes.mem_split_iff]
  constructor
  · rintro ⟨group, hg, c, ⟨before, after, he, hpos⟩, line, hline, hm⟩
    exact ⟨group, hg, before, c, after, he, hpos, line, hline, hm⟩
  · rintro ⟨group, hg, before, c, after, he, hpos, line, hline, hm⟩
    exact ⟨group, hg, c, ⟨before, after, he, hpos⟩, line, hline, hm⟩

/-- Testing is found among the imports exactly if one of them is a spelling of it. -/
theorem spellsTesting_iff {f : SourceFile} :
    spellsTesting f.imports = true ↔ f.ImportsTesting := by
  simp only [spellsTesting, List.any_eq_true, ImportsTesting, Option.any_eq_true, testingPaths,
    List.contains_iff_mem, List.mem_cons, List.not_mem_nil, or_false]
  constructor
  · rintro ⟨literal, hl, path, hp, rfl | rfl⟩
    · exact ⟨literal, hl, Or.inl hp⟩
    · exact ⟨literal, hl, Or.inr hp⟩
  · rintro ⟨literal, hl, hp | hp⟩
    · exact ⟨literal, hl, _, hp, Or.inl rfl⟩
    · exact ⟨literal, hl, _, hp, Or.inr rfl⟩

/-- **A file is skipped** for one of three reasons, and for no other. -/
theorem isSkipped_iff {f : SourceFile} : f.isSkipped = true ↔ f.Skipped := by
  rw [isSkipped, Bool.or_eq_true, Bool.or_eq_true, isGenerated_iff, spellsTesting_iff, isCached,
    Bytes.hasInfix_iff, or_assoc]
  rfl

end SourceFile

/-! ## offences -/

/-- A place in a package: a file, a declaration of it, and a path from its body. -/
structure Occurrence where
  file : Nat
  decl : Nat
  path : Path
  deriving DecidableEq, Repr

/-- The order of files, then of declarations, then of paths. -/
def Occurrence.Before (a b : Occurrence) : Prop :=
  a.file < b.file ∨ a.file = b.file ∧
    (a.decl < b.decl ∨ a.decl = b.decl ∧ List.Lex (· < ·) a.path b.path)

theorem Occurrence.Before.asymm {a b : Occurrence} (h : a.Before b) : ¬ b.Before a := by
  unfold Before at h ⊢
  rcases h with h | ⟨h, h' | ⟨h', hpath⟩⟩
  · omega
  · omega
  · rintro (hb | ⟨-, hb | ⟨-, hb⟩⟩)
    · omega
    · omega
    · exact List.lex_asymm Slot.lt_asymm hpath hb

/-- Two lists in strict order that hold the same are the same. -/
theorem eq_of_pairwise_before {xs ys : List (Occurrence × Report)}
    (hx : xs.Pairwise fun a b => a.1.Before b.1) (hy : ys.Pairwise fun a b => a.1.Before b.1)
    (h : ∀ z, z ∈ xs ↔ z ∈ ys) : xs = ys := by
  have hnodup {zs : List (Occurrence × Report)} (hz : zs.Pairwise fun a b => a.1.Before b.1) :
      zs.Nodup := by
    refine hz.imp ?_
    rintro a b hab rfl
    exact hab.asymm hab
  have hperm : xs.Perm ys := (List.perm_ext_iff_of_nodup (hnodup hx) (hnodup hy)).2 h
  exact hperm.eq_of_pairwise (fun a b _ _ hab hba => absurd hba hab.asymm) hx hy

/-- At a place in a package stands a call that must be reported: a call of the exit function in
the body of a `main` function, in a file that counts, of a package that is checked.  It is reported
with the name of the file, where the call starts. -/
inductive Offence (p : Package) : Occurrence → Report → Prop where
  | call {i j path f body callee args}
      (hname : p.name = ascii "main") (hpath : ¬ ascii "/cmd/staticlint" <:+ p.path)
      (hfile : p.files[i]? = some f) (hskip : ¬ f.Skipped)
      (hdecl : f.decls[j]? = some (.func (ascii "main") false (some body)))
      (hcall : Node.Descends (.stmt (.block body)) path (.expr (.call callee args)))
      (hexit : callee.CallsExit) :
      Offence p ⟨i, j, path⟩ ⟨f.name, (Expr.call callee args).start⟩

/-! ## the reports with their places -/

/-- Of all nodes only calls are reported, and only those of the exit function. -/
theorem callsExit_iff {n : Node} :
    n.callsExit = true ↔ ∃ callee args, n = .expr (.call callee args) ∧ callee.CallsExit := by
  constructor
  · intro h
    unfold Node.callsExit at h
    split at h
    · next callee args => exact ⟨callee, args, rfl, Expr.any_isExit_iff.1 h⟩
    · contradiction
  · rintro ⟨callee, args, rfl, h⟩
    exact Expr.any_isExit_iff.2 h

/-- The start of a located node, if it is a call of the exit function. -/
def finding? (q : Path × Node) : Option (Path × Int) :=
  if q.2.callsExit then q.2.start?.map (q.1, ·) else none

/-- The calls of the exit function in a body: the path to each, and where it starts. -/
def findingsIn (body : List Stmt) : List (Path × Int) :=
  (Node.located (.stmt (.block body))).filterMap finding?

/-- The calls in a body are those under the block of its statements. -/
theorem exitsOf_eq (body : List Stmt) : exitsOf body = Node.exits (.stmt (.block body)) := by
  have hchildren : (Node.stmt (.block body)).children = Node.stmts body := List.append_nil _
  rw [Node.exits, Node.preorder_eq, List.filter_cons_of_neg (by simp [Node.callsExit]),
    List.filter_flatMap, List.filterMap_flatMap, hchildren]
  rfl

theorem map_snd_findingsIn (body : List Stmt) :
    (findingsIn body).map Prod.snd = exitsOf body := by
  rw [exitsOf_eq, Node.exits, ← Node.map_snd_located, findingsIn, List.filterMap_filter,
    List.filterMap_map, List.map_filterMap]
  congr 1
  funext q
  by_cases h : q.2.callsExit
  · simp [finding?, h, Function.comp_def]
  · simp [finding?, h]

/-- A finding is a call to which a path leads, and where it starts. -/
theorem mem_findingsIn {body : List Stmt} {path : Path} {x : Int} :
    (path, x) ∈ findingsIn body ↔ ∃ callee args,
      Node.Descends (.stmt (.block body)) path (.expr (.call callee args)) ∧
        callee.CallsExit ∧ x = (Expr.call callee args).start := by
  simp only [findingsIn, List.mem_filterMap, Prod.exists, Node.mem_located]
  constructor
  · rintro ⟨path', n, hd, hf⟩
    by_cases h : n.callsExit
    · obtain ⟨callee, args, rfl, hc⟩ := callsExit_iff.1 h
      simp only [finding?, h, if_true, Node.start?, Option.map_some, Option.some.injEq,
        Prod.mk.injEq] at hf
      obtain ⟨rfl, rfl⟩ := hf
      exact ⟨callee, args, hd, hc, rfl⟩
    · simp [finding?, h] at hf
  · rintro ⟨callee, args, hd, hc, rfl⟩
    refine ⟨path, .expr (.call callee args), hd, ?_⟩
    have h : (Node.expr (.call callee args)).callsExit = true :=
      callsExit_iff.2 ⟨callee, args, rfl, hc⟩
    simp [finding?, h, Node.start?]

/-- Findings come in the order of the paths, no path twice. -/
theorem pairwise_findingsIn (body : List Stmt) :
    (findingsIn body).Pairwise fun a b => List.Lex (· < ·) a.1 b.1 := by
  refine (Node.pairwise_located _).filterMap finding? ?_
  -- what is found at a located node is found at the path of that node
  have hpath {q : Path × Node} {x : Path × Int} (h : finding? q = some x) : x.1 = q.1 := by
    unfold finding? at h
    split at h
    · obtain ⟨_, -, rfl⟩ := Option.map_eq_some_iff.1 h
      rfl
    · contradiction
  intro a b hab x hx y hy
  rw [hpath hx, hpath hy]
  exact hab

/-- The reports of a file with their places, if it is the `i`-th of its package. -/
def SourceFile.findings (f : SourceFile) (i : Nat) : List (Occurrence × Report) :=
  if f.isSkipped then []
  else f.decls.zipIdx.flatMap fun d => (d.1.mainBody?.elim [] findingsIn).map fun q =>
    (⟨i, d.2, q.1⟩, ⟨f.name, q.2⟩)

/-- The reports of a package with their places. -/
def Package.findings (p : Package) : List (Occurrence × Report) :=
  if p.isChecked then p.files.zipIdx.flatMap fun f => f.1.findings f.2 else []

/-- The calls of the exit function that a declaration is reported for. -/
def Decl.exits (d : Decl) : List Int := d.mainBody?.elim [] exitsOf

/-- The reports of a file go by its declarations, one after the other. -/
theorem SourceFile.reports_eq (f : SourceFile) : f.reports =
    if f.isSkipped then []
    else (f.decls.flatMap Decl.exits).map fun offset => ⟨f.name, offset⟩ := by
  unfold reports
  split
  · rfl
  · rw [List.filterMap_eq_flatMap_toList, List.flatMap_assoc, List.map_flatMap]
    apply List.flatMap_congr
    intro d _
    unfold Decl.exits
    cases d.mainBody? <;> simp

theorem SourceFile.map_snd_findings (f : SourceFile) (i : Nat) :
    (f.findings i).map Prod.snd = f.reports := by
  rw [findings, reports_eq]
  split
  · rfl
  · rw [Node.map_flatMap_zipIdx (k := fun d => d.exits.map fun offset => ⟨f.name, offset⟩)]
    · rw [List.map_flatMap]
    · intro d
      rw [List.map_map]
      cases h : d.1.mainBody? with
      | none => simp [Decl.exits, h]
      | some body => simp [Decl.exits, h, ← map_snd_findingsIn, Function.comp_def]

/-- The findings in a package are its reports, each with its place. -/
theorem Package.map_snd_findings (p : Package) : p.findings.map Prod.snd = p.reports := by
  unfold findings reports
  split
  · exact Node.map_flatMap_zipIdx (fun f => f.1.map_snd_findings f.2) p.files
  · rfl

/-- A body that counts is that of a function `main` without a receiver. -/
theorem Decl.mainBody?_eq_some {d : Decl} {body : List Stmt} :
    d.mainBody? = some body ↔ d = .func (ascii "main") false (some body) := by
  cases d with
  | declare specs => simp [mainBody?]
  | func name hasReceiver b =>
    rw [mainBody?, func.injEq]
    by_cases h : name = mainName ∧ hasReceiver = false
    · rw [if_pos h]
      exact ⟨fun hb => ⟨h.1, h.2, hb⟩, fun he => he.2.2⟩
    · rw [if_neg h]
      exact ⟨fun hb => (nomatch hb), fun he => absurd ⟨he.1, he.2.1⟩ h⟩

/-- A package is checked if it is a program, but not the checker itself. -/
theorem Package.isChecked_iff {p : Package} : p.isChecked = true ↔
    p.name = ascii "main" ∧ ¬ ascii "/cmd/staticlint" <:+ p.path := by
  rw [isChecked, Bool.and_eq_true, decide_eq_true_iff, Bool.not_eq_true', ← Bool.not_eq_true,
    List.isSuffixOf_iff_suffix]
  rfl

/-- A file has a finding where a body of a `main` function has one, unless it is skipped. -/
theorem SourceFile.mem_findings {f : SourceFile} {i : Nat} {o : Occurrence} {r : Report} :
    (o, r) ∈ f.findings i ↔ ¬ f.Skipped ∧ ∃ j body path x,
      f.decls[j]? = some (.func (ascii "main") false (some body)) ∧
        (path, x) ∈ findingsIn body ∧ o = ⟨i, j, path⟩ ∧ r = ⟨f.name, x⟩ := by
  constructor
  · intro h
    unfold findings at h
    split at h
    · contradiction
    · next hs =>
      obtain ⟨⟨d, j⟩, hd, hq⟩ := List.mem_flatMap.1 h
      obtain ⟨⟨path, x⟩, hx, he⟩ := List.mem_map.1 hq
      obtain ⟨rfl, rfl⟩ := Prod.mk.inj he
      cases hb : d.mainBody? with
      | none => simp [hb] at hx
      | some body =>
        rw [Decl.mainBody?_eq_some.1 hb, List.mk_mem_zipIdx_iff_getElem?] at hd
        rw [hb] at hx
        exact ⟨fun h => hs (isSkipped_iff.2 h), j, body, path, x, hd, hx, rfl, rfl⟩
  · rintro ⟨hs, j, body, path, x, hd, hx, rfl, rfl⟩
    rw [findings, if_neg fun h => hs (isSkipped_iff.1 h)]
    refine List.mem_flatMap.2 ⟨_, List.mk_mem_zipIdx_iff_getElem?.2 hd, List.mem_map.2 ?_⟩
    rw [Decl.mainBody?_eq_some.2 rfl]
    exact ⟨(path, x), hx, rfl⟩

/-- What is found is what offends. -/
theorem Package.mem_findings {p : Package} {o : Occurrence} {r : Report} :
    (o, r) ∈ p.findings ↔ Offence p o r := by
  constructor
  · intro h
    unfold findings at h
    split at h
    · next hp =>
      obtain ⟨hname, hpath⟩ := isChecked_iff.1 hp
      obtain ⟨⟨f, i⟩, hfile, hf⟩ := List.mem_flatMap.1 h
      obtain ⟨hskip, j, body, path, x, hdecl, hx, rfl, rfl⟩ := SourceFile.mem_findings.1 hf
      obtain ⟨callee, args, hcall, hexit, rfl⟩ := mem_findingsIn.1 hx
      exact .call hname hpath (List.mk_mem_zipIdx_iff_getElem?.1 hfile) hskip hdecl hcall hexit
    · contradiction
  · rintro ⟨hname, hpath, hfile, hskip, hdecl, hcall, hexit⟩
    rw [findings, if_pos (isChecked_iff.2 ⟨hname, hpath⟩)]
    refine List.mem_flatMap.2 ⟨_, List.mk_mem_zipIdx_iff_getElem?.2 hfile, ?_⟩
    exact SourceFile.mem_findings.2
      ⟨hskip, _, _, _, _, hdecl, mem_findingsIn.2 ⟨_, _, hcall, hexit, rfl⟩, rfl, rfl⟩

/-- In a file, findings come in the order of declarations and paths. -/
theorem SourceFile.pairwise_findings (f : SourceFile) (i : Nat) :
    (f.findings i).Pairwise fun a b => a.1.Before b.1 := by
  unfold findings
  split
  · exact List.Pairwise.nil
  · apply Node.pairwise_flatMap_zipIdx
    · intro d _
      rw [List.pairwise_map]
      cases d.1.mainBody? with
      | none => exact List.Pairwise.nil
      | some body =>
        exact (pairwise_findingsIn body).imp fun h => Or.inr ⟨rfl, Or.inr ⟨rfl, h⟩⟩
    · intro d e hde a ha b hb
      obtain ⟨_, -, rfl⟩ := List.mem_map.1 ha
      obtain ⟨_, -, rfl⟩ := List.mem_map.1 hb
      exact Or.inr ⟨rfl, Or.inl hde⟩

/-- In a package, findings come in the order of files, declarations and paths. -/
theorem Package.pairwise_findings (p : Package) :
    p.findings.Pairwise fun a b => a.1.Before b.1 := by
  unfold findings
  split
  · apply Node.pairwise_flatMap_zipIdx
    · exact fun f _ => f.1.pairwise_findings f.2
    · rintro f g hfg ⟨o, r⟩ ha ⟨o', r'⟩ hb
      obtain ⟨-, _, _, _, _, -, -, rfl, -⟩ := SourceFile.mem_findings.1 ha
      obtain ⟨-, _, _, _, _, -, -, rfl, -⟩ := SourceFile.mem_findings.1 hb
      exact Or.inl hfg
  · exact List.Pairwise.nil

/-- **The check is sound and complete, in order.**  A package that is not named `main`, or whose
path is that of the checker's own command, has no reports.  The reports of any package are those of
its offences: one for each place where a call must be reported and none besides, in the order of the
places.  Only one list of places is meant by that. -/
theorem reports_exact (p : Package) :
    (p.name ≠ ascii "main" ∨ ascii "/cmd/staticlint" <:+ p.path → p.reports = []) ∧
    ∃! found : List (Occurrence × Report),
      p.reports = found.map Prod.snd ∧
      found.Pairwise (fun a b => a.1.Before b.1) ∧
      ∀ o r, (o, r) ∈ found ↔ Offence p o r := by
  constructor
  · intro h
    have hp : ¬ p.isChecked = true := by
      rw [Package.isChecked_iff]
      tauto
    rw [Package.reports, if_neg hp]
  · refine ⟨p.findings, ⟨p.map_snd_findings.symm, p.pairwise_findings, ?_⟩, ?_⟩
    · exact fun o r => Package.mem_findings
    · rintro found ⟨-, hpair, hmem⟩
      apply eq_of_pairwise_before hpair p.pairwise_findings
      rintro ⟨o, r⟩
      rw [hmem, Package.mem_findings]

end ExitCheck

end ArgLine
