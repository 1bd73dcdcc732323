import Mathlib.Data.List.Flatten
import ArgLine.Proofs.ExitCheck.Invariance

/-!
# ArgLine.Proofs.ExitCheck.SourceOrder

Reports come in the order of the source.

A call is reported when the walk enters it, where its leftmost part starts; that part is met
later, and may lie any number of nodes down.  The two orders agree because the start of
an expression is the first token that the walk meets in it:

* `Node.tokens` lists the offsets of the tokens under a node as the walk meets them, and
  `head?_tokens` says that the first of them is where an expression starts;
* so if the tokens are in order, an expression starts no later than anything in it
  (`pairwise_starts`);
* `reports_in_source_order`: in a file whose tokens are in order, so are the reports.
-/

namespace ArgLine

namespace ExitCheck

/-! ## tokens -/

namespace Node

/-- The offset of the token that a node starts with, if it does not start with another node.  The
brace of a composite with a type is left out: it comes after the type, and nothing starts there. -/
def token? : Node → Option Int
  | name id => some id.pos
  | expr (.ident id) => some id.pos
  | expr (.paren pos _) => some pos
  | expr (.literal pos) => some pos
  | expr (.unary pos _) => some pos
  | expr (.star pos _) => some pos
  | expr (.composite pos none _) => some pos
  | expr (.ellipsis pos _) => some pos
  | expr (.arrayType pos _ _) => some pos
  | expr (.structType pos _) => some pos
  | expr (.funcType pos _ _ _) => some pos
  | expr (.interfaceType pos _) => some pos
  | expr (.mapType pos _ _) => some pos
  | expr (.chanType pos _) => some pos
  | expr (.bad pos) => some pos
  | _ => none

/-- The offsets of the tokens under a node, as the walk meets them. -/
def tokens (n : Node) : List Int := n.preorder.filterMap token?

/-- The starts of the expressions under a node, as the walk enters them. -/
def starts (n : Node) : List Int := n.preorder.filterMap start?

theorem tokens_eq (n : Node) : n.tokens = n.token?.toList ++ n.children.flatMap tokens :=
  n.filterMap_preorder token?

theorem starts_eq (n : Node) : n.starts = n.start?.toList ++ n.children.flatMap starts :=
  n.filterMap_preorder start?

/-- An expression starts with a token of its own or where its first child does. -/
theorem token?_or_child (x : Expr) :
    (expr x).token? = some x.start ∨
      (expr x).token? = none ∧ ∃ y rest, (expr x).children = expr y :: rest ∧
        y.start = x.start := by
  cases x with
  | composite pos type elements => cases type <;> simp [token?, children, parts, exprs, Expr.start]
  | _ => simp [token?, children, parts, Expr.start]

/-- The first token of an expression is where it starts, however far down that token is. -/
theorem head?_tokens (n : Node) {s : Int} (h : n.start? = some s) : n.tokens.head? = some s := by
  induction n using childInduction with
  | h n ih =>
    cases n with
    | expr x =>
      obtain rfl : x.start = s := Option.some.inj h
      rcases token?_or_child x with hown | ⟨hnone, y, rest, hchildren, hstart⟩
      · rw [tokens_eq, hown]
        rfl
      · have hy : (expr y).tokens.head? = some x.start :=
          ih (expr y) (by simp [hchildren]) (congrArg some hstart)
        rw [tokens_eq, hnone, hchildren]
        simp [hy]
    | _ => simp [start?] at h

/-- Every expression starts with some token. -/
theorem mem_tokens_of_mem_starts {n : Node} {s : Int} (h : s ∈ n.starts) : s ∈ n.tokens := by
  induction n using childInduction with
  | h n ih =>
    rw [starts_eq, List.mem_append] at h
    rcases h with hown | hbelow
    · exact List.mem_of_head? (n.head?_tokens (by simpa using hown))
    · obtain ⟨c, hc, hs⟩ := List.mem_flatMap.1 hbelow
      rw [tokens_eq]
      exact List.mem_append_right _ (List.mem_flatMap.2 ⟨c, hc, ih c hc hs⟩)

/-! ## starts -/

/-- What starts under an earlier of some nodes does so before what starts under a later one. -/
theorem pairwise_flatMap_starts {ns : List Node}
    (ih : ∀ n ∈ ns, n.tokens.Pairwise (· ≤ ·) → n.starts.Pairwise (· ≤ ·))
    (h : (ns.flatMap tokens).Pairwise (· ≤ ·)) : (ns.flatMap starts).Pairwise (· ≤ ·) := by
  obtain ⟨hin, hout⟩ := List.pairwise_flatMap.1 h
  refine List.pairwise_flatMap.2 ⟨fun n hn => ih n hn (hin n hn), hout.imp ?_⟩
  intro n m hnm s hs t ht
  exact hnm s (mem_tokens_of_mem_starts hs) t (mem_tokens_of_mem_starts ht)

/-- If the tokens under a node are in order, so are the starts of its expressions. -/
theorem pairwise_starts {n : Node} (h : n.tokens.Pairwise (· ≤ ·)) :
    n.starts.Pairwise (· ≤ ·) := by
  induction n using childInduction with
  | h n ih =>
    have hbelow : (n.children.flatMap starts).Pairwise (· ≤ ·) := by
      rw [tokens_eq] at h
      exact pairwise_flatMap_starts ih (List.pairwise_append.1 h).2.1
    rw [starts_eq]
    cases hstart : n.start? with
    | none => simpa using hbelow
    | some s =>
      refine List.pairwise_cons.2 ⟨fun t ht => ?_, hbelow⟩
      -- the node starts with its first token, and what starts below it does so at another
      obtain ⟨rest, htokens⟩ := List.head?_eq_some_iff.1 (n.head?_tokens hstart)
      have hmem : t ∈ n.tokens := by
        apply mem_tokens_of_mem_starts
        rw [starts_eq]
        exact List.mem_append_right _ ht
      rw [htokens] at h hmem
      rcases List.mem_cons.1 hmem with rfl | hmem
      · exact Int.le_refl t
      · exact List.rel_of_pairwise_cons h hmem

/-- The calls of the exit function are among the expressions. -/
theorem exits_sublist_starts (n : Node) : n.exits.Sublist n.starts :=
  List.filter_sublist.filterMap start?

end Node

/-! ## files -/

namespace SourceFile

/-- The statements of the `main` functions of a file. -/
def mainNodes (f : SourceFile) : List Node :=
  (f.decls.filterMap Decl.mainBody?).flatMap Node.stmts

/-- The tokens that are met in a file are in the order of the source. -/
def InOrder (f : SourceFile) : Prop := (f.mainNodes.flatMap Node.tokens).Pairwise (· ≤ ·)

instance (f : SourceFile) : Decidable f.InOrder :=
  inferInstanceAs (Decidable (List.Pairwise _ _))

/-- A file is reported for the statements of its `main` functions. -/
theorem reports_eq_mainNodes (f : SourceFile) : f.reports =
    if f.isSkipped then [] else (f.mainNodes.flatMap Node.exits).map fun s => ⟨f.name, s⟩ := by
  unfold reports mainNodes exitsOf
  rw [List.flatMap_assoc, List.map_flatMap]

/-- In a file whose tokens are in order, so are the offsets of its reports. -/
theorem InOrder.pairwise_reports {f : SourceFile} (h : f.InOrder) :
    f.reports.Pairwise fun r r' => r.offset ≤ r'.offset := by
  rw [reports_eq_mainNodes]
  split
  · exact List.Pairwise.nil
  · have hsub : (f.mainNodes.flatMap Node.exits).Sublist (f.mainNodes.flatMap Node.starts) :=
      List.Sublist.flatMap_right _ fun n _ => n.exits_sublist_starts
    rw [List.pairwise_map]
    exact (Node.pairwise_flatMap_starts (fun _ _ => Node.pairwise_starts) h).sublist hsub

theorem pairwise_offsets (f : SourceFile) (i : Nat) :
    (f.findings i).Pairwise fun a b => f.InOrder → a.2.offset ≤ b.2.offset := by
  by_cases h : f.InOrder
  · have hreports := h.pairwise_reports
    rw [← f.map_snd_findings i, List.pairwise_map] at hreports
    exact hreports.imp fun hle _ => hle
  · exact List.pairwise_of_forall fun _ _ h' => absurd h' h

end SourceFile

/-! ## packages -/

/-- Findings of one file are in order if its tokens are, whatever the other files hold. -/
theorem Package.pairwise_offsets (p : Package) :
    p.findings.Pairwise fun a b => a.1.file = b.1.file →
      ∀ f, p.files[a.1.file]? = some f → f.InOrder → a.2.offset ≤ b.2.offset := by
  have hfile {f : SourceFile} {i : Nat} {a : Occurrence × Report} (h : a ∈ f.findings i) :
      a.1.file = i := by
    obtain ⟨-, _, _, _, _, -, -, ho, -⟩ := SourceFile.mem_findings.1 h
    rw [ho]
  unfold findings
  split
  · apply Node.pairwise_flatMap_zipIdx
    · rintro ⟨f, i⟩ hf
      refine (f.pairwise_offsets i).imp_of_mem ?_
      intro a b ha _ hle _ f' hf' horder
      rw [hfile ha, List.mk_mem_zipIdx_iff_getElem?.1 hf] at hf'
      obtain rfl := Option.some.inj hf'
      exact hle horder
    · intro f g hfg a ha b hb heq
      rw [hfile ha, hfile hb] at heq
      omega
  · exact List.Pairwise.nil

/-- **Reports come in the order of the source.**  The reports of a package are its offences, place
by place: an earlier file comes before a later one, and a call before all that stands in it.  A call
is reported where it starts, which is the first token that the walk meets in it.  So if the tokens
of a file are in order, the offsets reported for it are. -/
theorem reports_in_source_order (p : Package) :
    p.reports = p.findings.map Prod.snd ∧
    (∀ o r, (o, r) ∈ p.findings ↔ Offence p o r) ∧
    (∀ x : Expr, (Node.expr x).tokens.head? = some x.start) ∧
    p.findings.Pairwise fun a b => a.1.Before b.1 ∧
      (a.1.file = b.1.file → ∀ f, p.files[a.1.file]? = some f → f.InOrder →
        a.2.offset ≤ b.2.offset) := by
  refine ⟨p.map_snd_findings.symm, fun o r => Package.mem_findings, ?_, ?_⟩
  · exact fun x => Node.head?_tokens _ rfl
  · exact p.pairwise_findings.and p.pairwise_offsets

def qualifiedExit (pos : Int) : Expr :=
  .selector (.ident ⟨pos, ascii "os", none⟩)
    ⟨pos + 3, ascii "Exit", some ⟨.func, some (ascii "os"), ascii "Exit"⟩⟩

/-- `os.Exit(code(func() { (os.Exit)(1) })); os.Exit(2)`: a call in an argument of a call, and one
after both. -/
def nestedExits : List Stmt :=
  [.expr (.call (qualifiedExit 10) [.call (.ident ⟨18, ascii "code", none⟩)
      [.function (.funcType 23 [] [] [])
        [.expr (.call (.paren 32 (qualifiedExit 33)) [.literal 42])]]]),
    .expr (.call (qualifiedExit 50) [.literal 58])]

def nestedTool : Package := tool [] [mainWith false nestedExits]

theorem mainNodes_nestedExits :
    (toolFile [] [mainWith false nestedExits]).mainNodes = Node.stmts nestedExits := by
  simp [SourceFile.mainNodes, toolFile, mainWith, Decl.mainBody?_eq_some.2]

/-- The outer call is reported first, then the one in its argument, then the other. -/
theorem reports_nestedTool : nestedTool.reports.map Report.offset = [10, 32, 50] := by
  have hexits : (Node.stmts nestedExits).flatMap Node.exits = [10, 32, 50] := by
    simp only [nestedExits, qualifiedExit, Node.stmts, List.map_cons, List.map_nil,
      List.flatMap_cons, List.flatMap_nil, List.flatten_cons, List.flatten_nil, List.cons_append,
      List.nil_append, Node.exits, Node.preorder_eq, Node.children, Node.parts, Node.exprs,
      Node.fields]
    rfl
  have hfile : (toolFile [] [mainWith false nestedExits]).reports =
      [⟨ascii "main.go", 10⟩, ⟨ascii "main.go", 32⟩, ⟨ascii "main.go", 50⟩] := by
    rw [SourceFile.reports_eq_mainNodes, mainNodes_nestedExits, hexits]
    rfl
  have hchecked : nestedTool.isChecked = true := rfl
  rw [Package.reports, if_pos hchecked, nestedTool, tool, List.flatMap_singleton, hfile]
  rfl

/-- The tokens are in order, and so are the reports of the three calls. -/
theorem reports_in_source_order_nested :
    (toolFile [] [mainWith false nestedExits]).InOrder ∧
    nestedTool.reports.map Report.offset = [10, 32, 50] ∧
    nestedTool.findings.Pairwise fun a b => a.1.file = b.1.file → a.1.file = 0 →
      a.2.offset ≤ b.2.offset := by
  have horder : (toolFile [] [mainWith false nestedExits]).InOrder := by
    have htokens : (Node.stmts nestedExits).flatMap Node.tokens =
        [10, 13, 18, 23, 32, 33, 36, 42, 50, 53, 58] := by
      simp [nestedExits, qualifiedExit, Node.stmts, Node.exprs, Node.fields, Node.tokens_eq,
        Node.token?, Node.children, Node.parts]
    rw [SourceFile.InOrder, mainNodes_nestedExits, htokens]
    decide
  refine ⟨horder, reports_nestedTool, (reports_in_source_order nestedTool).2.2.2.imp ?_⟩
  rintro a b ⟨-, hle⟩ hfile hfirst
  exact hle hfile _ (by rw [hfirst]; rfl) horder

end ExitCheck

end ArgLine
