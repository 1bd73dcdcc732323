import Mathlib.Data.List.Basic
import ArgLine.ExitCheck.Syntax

/-!
# ArgLine.Proofs.ExitCheck.Paths

Where a node stands in a syntax tree, said without walking the tree.

* `Child n s c` holds when `c` stands directly under `n` in slot `s`.  It has one
  rule for each part of each constructor, so that what counts as standing under a
  node can be read off rule by rule.
* A path is a list of slots, and `Descends n p m` leads along it from `n` to `m`.
* Paths are ordered like the words of a dictionary: a node comes before what
  stands under it, and what stands in an earlier slot before what stands in a
  later one.

`Node.located` is the walk `Node.preorder` with the path to each node kept beside it
(`map_snd_located`).  It meets exactly the nodes to which paths lead
(`mem_located`), in the order of the paths and no path twice
(`pairwise_located`).
-/

namespace ArgLine

namespace ExitCheck

/-! ## slots -/

/-- Where a child stands under its node: in which part, counted in the order in which the parts
are visited, and at which place of that part. -/
structure Slot where
  part : Nat
  item : Nat
  deriving DecidableEq, Repr

/-- An earlier part comes first, and in one part the earlier place. -/
instance : LT Slot := ⟨fun s t => s.part < t.part ∨ s.part = t.part ∧ s.item < t.item⟩

theorem Slot.lt_asymm {s t : Slot} (h : s < t) : ¬ t < s := by
  change s.part < t.part ∨ s.part = t.part ∧ s.item < t.item at h
  change ¬ (t.part < s.part ∨ t.part = s.part ∧ t.item < s.item)
  omega

/-- The slots on the way from a node down to another. -/
abbrev Path := List Slot

namespace Node

/-- What stands directly under a node, and where. -/
inductive Child : Node → Slot → Node → Prop where
  | selectorOperand {x sel} : Child (expr (.selector x sel)) ⟨0, 0⟩ (expr x)
  | selectorName {x sel} : Child (expr (.selector x sel)) ⟨1, 0⟩ (name sel)
  | callee {f args} : Child (expr (.call f args)) ⟨0, 0⟩ (expr f)
  | argument {f args i x} (h : args[i]? = some x) : Child (expr (.call f args)) ⟨1, i⟩ (expr x)
  | parenthesized {pos x} : Child (expr (.paren pos x)) ⟨0, 0⟩ (expr x)
  | indexed {x y byType} : Child (expr (.index x y byType)) ⟨0, 0⟩ (expr x)
  | indexBy {x y byType} : Child (expr (.index x y byType)) ⟨1, 0⟩ (expr y)
  | instantiated {x ys} : Child (expr (.indexList x ys)) ⟨0, 0⟩ (expr x)
  | typeArgument {x ys i y} (h : ys[i]? = some y) :
      Child (expr (.indexList x ys)) ⟨1, i⟩ (expr y)
  | functionType {type body} : Child (expr (.function type body)) ⟨0, 0⟩ (expr type)
  | functionBody {type body i s} (h : body[i]? = some s) :
      Child (expr (.function type body)) ⟨1, i⟩ (stmt s)
  | unaryOperand {pos x} : Child (expr (.unary pos x)) ⟨0, 0⟩ (expr x)
  | starOperand {pos x} : Child (expr (.star pos x)) ⟨0, 0⟩ (expr x)
  | binaryLeft {x y} : Child (expr (.binary x y)) ⟨0, 0⟩ (expr x)
  | binaryRight {x y} : Child (expr (.binary x y)) ⟨1, 0⟩ (expr y)
  | key {x y} : Child (expr (.keyValue x y)) ⟨0, 0⟩ (expr x)
  | value {x y} : Child (expr (.keyValue x y)) ⟨1, 0⟩ (expr y)
  | compositeType {pos type elements} :
      Child (expr (.composite pos (some type) elements)) ⟨0, 0⟩ (expr type)
  | element {pos type elements i x} (h : elements[i]? = some x) :
      Child (expr (.composite pos type elements)) ⟨1, i⟩ (expr x)
  | sliced {x low high max} : Child (expr (.slice x low high max)) ⟨0, 0⟩ (expr x)
  | sliceLow {x low high max} : Child (expr (.slice x (some low) high max)) ⟨1, 0⟩ (expr low)
  | sliceHigh {x low high max} : Child (expr (.slice x low (some high) max)) ⟨2, 0⟩ (expr high)
  | sliceMax {x low high max} : Child (expr (.slice x low high (some max))) ⟨3, 0⟩ (expr max)
  | asserted {x type} : Child (expr (.assertion x type)) ⟨0, 0⟩ (expr x)
  | assertedType {x type} : Child (expr (.assertion x (some type))) ⟨1, 0⟩ (expr type)
  | ellipsisType {pos type} : Child (expr (.ellipsis pos (some type))) ⟨0, 0⟩ (expr type)
  | arrayLength {pos length element} :
      Child (expr (.arrayType pos (some length) element)) ⟨0, 0⟩ (expr length)
  | arrayElement {pos length element} :
      Child (expr (.arrayType pos length element)) ⟨1, 0⟩ (expr element)
  | structField {pos members i f} (h : members[i]? = some f) :
      Child (expr (.structType pos members)) ⟨0, i⟩ (field f)
  | funcTypeParam {pos typeParams params results i f} (h : typeParams[i]? = some f) :
      Child (expr (.funcType pos typeParams params results)) ⟨0, i⟩ (field f)
  | funcParam {pos typeParams params results i f} (h : params[i]? = some f) :
      Child (expr (.funcType pos typeParams params results)) ⟨1, i⟩ (field f)
  | funcResult {pos typeParams params results i f} (h : results[i]? = some f) :
      Child (expr (.funcType pos typeParams params results)) ⟨2, i⟩ (field f)
  | method {pos methods i f} (h : methods[i]? = some f) :
      Child (expr (.interfaceType pos methods)) ⟨0, i⟩ (field f)
  | mapKey {pos key value} : Child (expr (.mapType pos key value)) ⟨0, 0⟩ (expr key)
  | mapValue {pos key value} : Child (expr (.mapType pos key value)) ⟨1, 0⟩ (expr value)
  | chanValue {pos value} : Child (expr (.chanType pos value)) ⟨0, 0⟩ (expr value)
  | expression {x} : Child (stmt (.expr x)) ⟨0, 0⟩ (expr x)
  | deferred {x} : Child (stmt (.deferred x)) ⟨0, 0⟩ (expr x)
  | go {x} : Child (stmt (.go x)) ⟨0, 0⟩ (expr x)
  | blockItem {body i s} (h : body[i]? = some s) : Child (stmt (.block body)) ⟨0, i⟩ (stmt s)
  | branchInit {init cond body otherwise} :
      Child (stmt (.branch (some init) cond body otherwise)) ⟨0, 0⟩ (stmt init)
  | branchCond {init cond body otherwise} :
      Child (stmt (.branch init cond body otherwise)) ⟨1, 0⟩ (expr cond)
  | branchBody {init cond body otherwise i s} (h : body[i]? = some s) :
      Child (stmt (.branch init cond body otherwise)) ⟨2, i⟩ (stmt s)
  | branchElse {init cond body otherwise} :
      Child (stmt (.branch init cond body (some otherwise))) ⟨3, 0⟩ (stmt otherwise)
  | loopInit {init cond post body} :
      Child (stmt (.loop (some init) cond post body)) ⟨0, 0⟩ (stmt init)
  | loopCond {init cond post body} :
      Child (stmt (.loop init (some cond) post body)) ⟨1, 0⟩ (expr cond)
  | loopPost {init cond post body} :
      Child (stmt (.loop init cond (some post) body)) ⟨2, 0⟩ (stmt post)
  | loopBody {init cond post body i s} (h : body[i]? = some s) :
      Child (stmt (.loop init cond post body)) ⟨3, i⟩ (stmt s)
  | rangeKey {key value x body} :
      Child (stmt (.range (some key) value x body)) ⟨0, 0⟩ (expr key)
  | rangeValue {key value x body} :
      Child (stmt (.range key (some value) x body)) ⟨1, 0⟩ (expr value)
  | rangeOperand {key value x body} : Child (stmt (.range key value x body)) ⟨2, 0⟩ (expr x)
  | rangeBody {key value x body i s} (h : body[i]? = some s) :
      Child (stmt (.range key value x body)) ⟨3, i⟩ (stmt s)
  | switchInit {init tag cases} :
      Child (stmt (.switch (some init) tag cases)) ⟨0, 0⟩ (stmt init)
  | switchTag {init tag cases} : Child (stmt (.switch init (some tag) cases)) ⟨1, 0⟩ (expr tag)
  | switchCase {init tag cases i c} (h : cases[i]? = some c) :
      Child (stmt (.switch init tag cases)) ⟨2, i⟩ (clause c)
  | typeSwitchInit {init assign cases} :
      Child (stmt (.typeSwitch (some init) assign cases)) ⟨0, 0⟩ (stmt init)
  | typeSwitchAssign {init assign cases} :
      Child (stmt (.typeSwitch init assign cases)) ⟨1, 0⟩ (stmt assign)
  | typeSwitchCase {init assign cases i c} (h : cases[i]? = some c) :
      Child (stmt (.typeSwitch init assign cases)) ⟨2, i⟩ (clause c)
  | selectCase {cases i c} (h : cases[i]? = some c) :
      Child (stmt (.select cases)) ⟨0, i⟩ (clause c)
  | result {results i x} (h : results[i]? = some x) :
      Child (stmt (.ret results)) ⟨0, i⟩ (expr x)
  | assignLeft {lhs rhs i x} (h : lhs[i]? = some x) :
      Child (stmt (.assign lhs rhs)) ⟨0, i⟩ (expr x)
  | assignRight {lhs rhs i x} (h : rhs[i]? = some x) :
      Child (stmt (.assign lhs rhs)) ⟨1, i⟩ (expr x)
  | incDecOperand {x} : Child (stmt (.incDec x)) ⟨0, 0⟩ (expr x)
  | sendTo {x y} : Child (stmt (.send x y)) ⟨0, 0⟩ (expr x)
  | sendValue {x y} : Child (stmt (.send x y)) ⟨1, 0⟩ (expr y)
  | labelName {id s} : Child (stmt (.label id s)) ⟨0, 0⟩ (name id)
  | labelled {id s} : Child (stmt (.label id s)) ⟨1, 0⟩ (stmt s)
  | jumpLabel {id} : Child (stmt (.jump (some id))) ⟨0, 0⟩ (name id)
  | declared {specs i s} (h : specs[i]? = some s) :
      Child (stmt (.declare specs)) ⟨0, i⟩ (spec s)
  | caseValue {list body i x} (h : list[i]? = some x) :
      Child (clause (.values list body)) ⟨0, i⟩ (expr x)
  | caseBody {list body i s} (h : body[i]? = some s) :
      Child (clause (.values list body)) ⟨1, i⟩ (stmt s)
  | commOperation {op body} : Child (clause (.comm (some op) body)) ⟨0, 0⟩ (stmt op)
  | commBody {op body i s} (h : body[i]? = some s) :
      Child (clause (.comm op body)) ⟨1, i⟩ (stmt s)
  | fieldName {ids type tag i id} (h : ids[i]? = some id) :
      Child (field (.mk ids type tag)) ⟨0, i⟩ (name id)
  | fieldType {ids type tag} : Child (field (.mk ids (some type) tag)) ⟨1, 0⟩ (expr type)
  | fieldTag {ids type tag} : Child (field (.mk ids type (some tag))) ⟨2, 0⟩ (expr tag)
  | valueName {ids type values i id} (h : ids[i]? = some id) :
      Child (spec (.values ids type values)) ⟨0, i⟩ (name id)
  | valueType {ids type values} :
      Child (spec (.values ids (some type) values)) ⟨1, 0⟩ (expr type)
  | initialValue {ids type values i x} (h : values[i]? = some x) :
      Child (spec (.values ids type values)) ⟨2, i⟩ (expr x)
  | typeName {id params type} : Child (spec (.type id params type)) ⟨0, 0⟩ (name id)
  | typeParam {id params type i f} (h : params[i]? = some f) :
      Child (spec (.type id params type)) ⟨1, i⟩ (field f)
  | typeMeaning {id params type} : Child (spec (.type id params type)) ⟨2, 0⟩ (expr type)

/-- A path leads from a node to another. -/
inductive Descends : Node → Path → Node → Prop where
  | here {n} : Descends n [] n
  | under {n c m s p} (hc : Child n s c) (hd : Descends c p m) : Descends n (s :: p) m

/-! ## the parts of a node -/

@[grind →] theorem getElem?_singleton_eq_some {x c : α} {j : Nat} (h : [x][j]? = some c) :
    j = 0 ∧ x = c := by
  simpa [List.getElem?_singleton] using h

@[grind →] theorem getElem?_toList_eq_some {o : Option α} {x : α} {j : Nat}
    (h : o.toList[j]? = some x) : j = 0 ∧ o = some x := by
  cases o with
  | none => simp at h
  | some y => simpa [List.getElem?_singleton] using h

@[grind →] theorem getElem?_map_eq_some {wrap : α → Node} {xs : List α} {c : Node} {j : Nat}
    (h : (xs.map wrap)[j]? = some c) : ∃ x, xs[j]? = some x ∧ wrap x = c := by
  simpa using h

/-- What stands in a part of a node is its child. -/
theorem child_of_getElem? {n c : Node} {part : List Node} {i j : Nat}
    (hp : n.parts[i]? = some part) (hc : part[j]? = some c) : Child n ⟨i, j⟩ c := by
  -- no node has more than four parts, so the part is settled by four cases of its number
  cases n with
  | name id => simp [parts] at hp
  | expr x =>
    cases x <;> rcases i with _ | _ | _ | _ | i <;> simp [parts] at hp <;> subst hp <;>
      grind [Child, exprs, stmts, fields]
  | stmt s =>
    cases s <;> rcases i with _ | _ | _ | _ | i <;> simp [parts] at hp <;> subst hp <;>
      grind [Child, names, exprs, stmts, clauses]
  | clause c =>
    cases c <;> rcases i with _ | _ | i <;> simp [parts] at hp <;> subst hp <;>
      grind [Child, exprs, stmts]
  | field f =>
    cases f
    rcases i with _ | _ | _ | i <;> simp [parts] at hp <;> subst hp <;>
      grind [Child, names, exprs]
  | spec s =>
    cases s <;> rcases i with _ | _ | _ | i <;> simp [parts] at hp <;> subst hp <;>
      grind [Child, names, exprs, fields]

/-- What `Child` says rule by rule is what the parts list. -/
theorem child_iff {n c : Node} {s : Slot} :
    Child n s c ↔ ∃ part, n.parts[s.part]? = some part ∧ part[s.item]? = some c := by
  constructor
  · intro h
    cases h <;> simp_all [parts, names, exprs, stmts, clauses, fields]
  · rintro ⟨part, hp, hc⟩
    exact child_of_getElem? hp hc

/-- In a slot stands one child at most. -/
theorem Child.unique {n c c' : Node} {s : Slot} (h : Child n s c) (h' : Child n s c') :
    c = c' := by
  obtain ⟨part, hp, hc⟩ := child_iff.1 h
  obtain ⟨part', hp', hc'⟩ := child_iff.1 h'
  obtain rfl := Option.some.inj (hp.symm.trans hp')
  exact Option.some.inj (hc.symm.trans hc')

/-- A path leads to one node at most. -/
theorem Descends.unique {n m m' : Node} {p : Path} (h : Descends n p m) (h' : Descends n p m') :
    m = m' := by
  induction h with
  | here =>
    cases h' with
    | here => rfl
  | under hc _ ih =>
    cases h' with
    | under hc' hd' =>
      obtain rfl := hc.unique hc'
      exact ih hd'

/-! ## numbered children -/

/-- Numbering counts upwards. -/
theorem pairwise_zipIdx (xs : List α) : xs.zipIdx.Pairwise fun a b => a.2 < b.2 := by
  have h : (List.range' 0 xs.length).Pairwise (· < ·) := List.pairwise_lt_range'
  rwa [← List.zipIdx_map_snd 0 xs, List.pairwise_map] at h

/-- Lists made from numbered items are in order one after the other, if each is in order and the
number decides between two of them. -/
theorem pairwise_flatMap_zipIdx {R : β → β → Prop} {xs : List α} {f : α × Nat → List β}
    (hin : ∀ x ∈ xs.zipIdx, (f x).Pairwise R)
    (hout : ∀ x y, x.2 < y.2 → ∀ a ∈ f x, ∀ b ∈ f y, R a b) :
    (xs.zipIdx.flatMap f).Pairwise R :=
  List.pairwise_flatMap.2 ⟨hin, (pairwise_zipIdx xs).imp fun h => hout _ _ h⟩

/-- What does not depend on the numbers is the same without them. -/
theorem map_flatMap_zipIdx {f : α × Nat → List β} {g : β → γ} {k : α → List γ}
    (h : ∀ x, (f x).map g = k x.1) (xs : List α) :
    (xs.zipIdx.flatMap f).map g = xs.flatMap k := by
  rw [List.map_flatMap, List.flatMap_congr fun x _ => h x]
  conv => rhs; rw [← List.zipIdx_map_fst 0 xs, List.flatMap_map]

/-- The items of some parts, each with its slot. -/
def number (parts : List (List α)) : List (Slot × α) :=
  parts.zipIdx.flatMap fun part => part.1.zipIdx.map fun item => (⟨part.2, item.2⟩, item.1)

theorem map_snd_number (parts : List (List α)) : (number parts).map Prod.snd = parts.flatten := by
  rw [number, map_flatMap_zipIdx (k := id), List.flatMap_id]
  intro part
  rw [List.map_map]
  exact List.zipIdx_map_fst 0 part.1

theorem mem_number {parts : List (List α)} {s : Slot} {x : α} :
    (s, x) ∈ number parts ↔ ∃ part, parts[s.part]? = some part ∧ part[s.item]? = some x := by
  obtain ⟨i, j⟩ := s
  simp only [number, List.mem_flatMap, List.mem_map, Prod.exists, Prod.mk.injEq, Slot.mk.injEq,
    List.mk_mem_zipIdx_iff_getElem?]
  constructor
  · rintro ⟨part, i', hp, x', j', hx, ⟨rfl, rfl⟩, rfl⟩
    exact ⟨part, hp, hx⟩
  · rintro ⟨part, hp, hx⟩
    exact ⟨part, i, hp, x, j, hx, ⟨rfl, rfl⟩, rfl⟩

/-- Slots are numbered in their order. -/
theorem pairwise_number (parts : List (List α)) :
    (number parts).Pairwise fun a b => a.1 < b.1 := by
  apply pairwise_flatMap_zipIdx
  · intro part _
    rw [List.pairwise_map]
    exact (pairwise_zipIdx part.1).imp fun h => Or.inr ⟨rfl, h⟩
  · intro x y hxy a ha b hb
    obtain ⟨_, -, rfl⟩ := List.mem_map.1 ha
    obtain ⟨_, -, rfl⟩ := List.mem_map.1 hb
    exact Or.inl hxy

/-- The children of a node, each with its slot. -/
def slots (n : Node) : List (Slot × Node) := number n.parts

theorem map_snd_slots (n : Node) : n.slots.map Prod.snd = n.children := by
  rw [slots, map_snd_number, children]

theorem mem_slots {n c : Node} {s : Slot} : (s, c) ∈ n.slots ↔ Child n s c := by
  rw [slots, mem_number, child_iff]

theorem mem_children_of_mem_slots {n : Node} {x : Slot × Node} (h : x ∈ n.slots) :
    x.2 ∈ n.children := by
  rw [← map_snd_slots]
  exact List.mem_map_of_mem h

/-! ## located nodes -/

/-- A node and all that stands under it, each with the path to it, in the order of the walk. -/
def located (n : Node) : List (Path × Node) :=
  ([], n) :: n.slots.attach.flatMap fun x => (located x.1.2).map fun q => (x.1.1 :: q.1, q.2)
termination_by n
decreasing_by exact sizeOf_lt_of_mem_children (mem_children_of_mem_slots x.2)

/-- A node is located at the empty path, and what is under a child behind the slot of the child. -/
theorem located_eq (n : Node) :
    n.located =
      ([], n) :: n.slots.flatMap fun x => x.2.located.map fun q => (x.1 :: q.1, q.2) := by
  rw [located]
  conv => rhs; rw [← List.attach_map_subtype_val n.slots, List.flatMap_map]

/-- Induction over a tree: a fact holds of a node if it holds of its children. -/
theorem childInduction {motive : Node → Prop} (n : Node)
    (h : ∀ n, (∀ c ∈ n.children, motive c) → motive n) : motive n := by
  induction n using preorder.induct with
  | case1 n ih => exact h n fun c hc => ih ⟨c, hc⟩

/-- What is picked out of the nodes of a tree: what is picked of its root, then of its children. -/
theorem filterMap_preorder (g : Node → Option α) (n : Node) :
    n.preorder.filterMap g =
      (g n).toList ++ n.children.flatMap fun c => c.preorder.filterMap g := by
  rw [preorder_eq, List.filterMap_cons, List.filterMap_flatMap]
  cases g n <;> rfl

/-- Without their paths, the located nodes are those of the walk. -/
theorem map_snd_located (n : Node) : n.located.map Prod.snd = n.preorder := by
  induction n using childInduction with
  | h n ih =>
    rw [located_eq, preorder_eq, ← map_snd_slots, List.map_cons, List.map_flatMap,
      List.flatMap_map]
    congr 1
    apply List.flatMap_congr
    intro x hx
    rw [← ih x.2 (mem_children_of_mem_slots hx), List.map_map]
    rfl

/-- What is located is what paths lead to. -/
theorem mem_located {n m : Node} {p : Path} : (p, m) ∈ n.located ↔ Descends n p m := by
  induction n using childInduction generalizing p with
  | h n ih =>
    rw [located_eq]
    constructor
    · intro h
      rcases List.mem_cons.1 h with h | h
      · obtain ⟨rfl, rfl⟩ := Prod.mk.inj h
        exact .here
      · obtain ⟨x, hx, hq⟩ := List.mem_flatMap.1 h
        obtain ⟨q, hm, he⟩ := List.mem_map.1 hq
        obtain ⟨rfl, rfl⟩ := Prod.mk.inj he
        exact .under (mem_slots.1 hx) ((ih x.2 (mem_children_of_mem_slots hx)).1 hm)
    · intro h
      cases h with
      | here => exact List.mem_cons_self
      | @under _ c _ s p hc hd =>
        have hx : (s, c) ∈ n.slots := mem_slots.2 hc
        refine List.mem_cons_of_mem _ (List.mem_flatMap.2 ⟨(s, c), hx, List.mem_map.2 ?_⟩)
        exact ⟨(p, m), (ih c (mem_children_of_mem_slots hx)).2 hd, rfl⟩

/-- The walk follows the order of the paths, and meets no path twice. -/
theorem pairwise_located (n : Node) :
    n.located.Pairwise fun a b => List.Lex (· < ·) a.1 b.1 := by
  induction n using childInduction with
  | h n ih =>
    rw [located_eq, List.pairwise_cons]
    constructor
    · intro q hq
      obtain ⟨x, -, hq⟩ := List.mem_flatMap.1 hq
      obtain ⟨q, -, rfl⟩ := List.mem_map.1 hq
      exact .nil
    · rw [List.pairwise_flatMap]
      constructor
      · intro x hx
        rw [List.pairwise_map]
        exact (ih x.2 (mem_children_of_mem_slots hx)).imp fun h => .cons h
      · refine (pairwise_number n.parts).imp ?_
        intro x y hxy a ha b hb
        obtain ⟨_, -, rfl⟩ := List.mem_map.1 ha
        obtain ⟨_, -, rfl⟩ := List.mem_map.1 hb
        exact .rel hxy

end Node

end ExitCheck

end ArgLine
