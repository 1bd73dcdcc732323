import ArgLine.Proofs.Buffer.Confinement
import ArgLine.Proofs.Buffer.Shapes

/-!
# ArgLine.Proofs.Buffer.Relocation

What a run answers does not depend on where its allocations lie.

Two runs of the same steps under two allocators are followed side by side.  Their stores
are `Alike`: they have one ledger, the same slots, the same buffers open, and the same
bytes in corresponding windows.  What lies around the windows, where they start and
which addresses they have may differ.

* Each operation keeps two stores alike (`Alike.acquire`, `Alike.store`, ...).
* Alike stores look the same, if their allocations lie within the address space
  (`Alike.viewBuffer_eq`).
* `Step.alike` and `runSteps_alike` put the two together.
-/

namespace ArgLine

namespace Memory

/-- Every allocation has an address and ends within the address space. -/
def Placed (m : Memory) : Prop :=
  ∀ k ∈ m.blocks, k.base ≠ 0 ∧ k.base.toNat + k.bytes.length ≤ UInt64.size

instance (m : Memory) : Decidable m.Placed :=
  inferInstanceAs (Decidable (∀ k ∈ m.blocks,
    k.base ≠ 0 ∧ k.base.toNat + k.bytes.length ≤ UInt64.size))

/-- Blocks are placed if each lies below the end of the address space, and none at zero. -/
theorem placed_iff {m : Memory} : m.Placed ↔ ∀ (i : Nat) (k : Block), m.blocks[i]? = some k →
    k.base ≠ 0 ∧ k.base.toNat + k.bytes.length ≤ UInt64.size := by
  constructor
  · intro h i k hk
    exact h k (List.mem_of_getElem? hk)
  · intro h k hk
    obtain ⟨i, hi⟩ := List.mem_iff_getElem?.1 hk
    exact h i k hi

end Memory

namespace Buffer

/-- An action neither moves an allocation nor changes its length. -/
theorem exists_block_apply (a : Allocator) {s : Store} {i : Nat} {k : Block}
    (hk : s.memory.blocks[i]? = some k) (x : Action) :
    ∃ k', (x.apply a s).memory.blocks[i]? = some k' ∧ k'.base = k.base ∧
      k'.bytes.length = k.bytes.length := by
  cases x with
  | acquire r =>
    by_cases hr : r.Granted
    · exact ⟨k, blocks?_acquire hr a hk, rfl, rfl⟩
    · obtain ⟨e, he⟩ := Option.ne_none_iff_exists'.1 hr
      rw [Action.apply, store_acquire_of_refusal he]
      exact ⟨k, hk, rfl, rfl⟩
  | copy h =>
    have hmemory : ((Action.copy h).apply a s).memory = s.memory := by
      rw [Action.apply]
      cases s.buffer? h <;> rfl
    rw [hmemory]
    exact ⟨k, hk, rfl, rfl⟩
  | close h => exact ⟨k, hk, rfl, rfl⟩
  | store block place data =>
    rw [Action.apply, blocks?_storeAll, hk, Option.map_some]
    split
    · exact ⟨_, rfl, rfl, Bytes.length_overwrite ..⟩
    · exact ⟨k, rfl, rfl, rfl⟩
  | name slot h => exact ⟨k, hk, rfl, rfl⟩
  | keep n w => exact ⟨k, hk, rfl, rfl⟩

/-- What is well placed after an action was so before it. -/
theorem placed_of_apply {a : Allocator} {s : Store} {x : Action}
    (h : (x.apply a s).memory.Placed) : s.memory.Placed := by
  rw [Memory.placed_iff] at h ⊢
  intro i k hk
  obtain ⟨k', hk', hbase, hlength⟩ := exists_block_apply a hk x
  have hplaced := h i k' hk'
  rw [hbase, hlength] at hplaced
  exact hplaced

/-- What is placed in the end was placed before. -/
theorem placed_of_replay {a : Allocator} {s : Store} {xs : List Action}
    (h : (replay a s xs).memory.Placed) : s.memory.Placed := by
  induction xs generalizing s with
  | nil => exact h
  | cons x xs ih => exact placed_of_apply (ih h)

/-! ## corresponding windows -/

/-- The same window in the two memories, or none in both. -/
inductive Twin (a a' : Allocator) (l : Ledger) : Option Slice → Option Slice → Prop where
  | none : Twin a a' l none none
  | window {i : Nat} {r : Request} (hr : l.requests[i]? = some r) :
      Twin a a' l (some (r.window i (a i r.total))) (some (r.window i (a' i r.total)))

/-- The stores of two runs of the same steps. -/
structure Alike (a a' : Allocator) (l : Ledger) (s s' : Store) : Prop where
  left : Sound a s l
  right : Sound a' s' l
  contents : ∀ (i : Nat) (r : Request), l.requests[i]? = some r →
    s.memory.read (r.window i (a i r.total)) = s'.memory.read (r.window i (a' i r.total))
  closed : ∀ h, (s.buffer? h).map isClosed = (s'.buffer? h).map isClosed
  slots : s'.slots = s.slots
  holds : ∀ n, Option.Rel (Twin a a' l) (s.holds.get? n) (s'.holds.get? n)

theorem alike_empty (a a' : Allocator) : Alike a a' .empty .empty .empty where
  left := sound_empty a
  right := sound_empty a'
  contents i r h := by simp [Ledger.empty] at h
  closed _ := rfl
  slots := rfl
  holds n := by simp [Store.empty]

section Windows

variable {a a' : Allocator} {l : Ledger} {s s' : Store} {w w' : Option Slice}

theorem Twin.after (h : Twin a a' l w w') (x : Action) : Twin a a' (l.after x) w w' := by
  cases h with
  | none => exact .none
  | window hr => exact .window (Ledger.requests_after hr x)

theorem Twin.rel_after {x x' : Option (Option Slice)} (h : Option.Rel (Twin a a' l) x x')
    (y : Action) : Option.Rel (Twin a a' (l.after y)) x x' := by
  cases h with
  | none => exact .none
  | some hw => exact .some (hw.after y)

theorem Twin.lengthOf_eq (h : Twin a a' l w w') : Slice.lengthOf w = Slice.lengthOf w' := by
  cases h <;> rfl

theorem Twin.capacityOf_eq (h : Twin a a' l w w') :
    Slice.capacityOf w = Slice.capacityOf w' := by
  cases h <;> rfl

/-- Windows that match show the same bytes. -/
theorem Twin.viewSlice_eq (hw : Twin a a' l w w') (h : Alike a a' l s s') :
    viewSlice s.memory w = viewSlice s'.memory w' := by
  cases hw with
  | none => rfl
  | @window i r hr =>
    have hbytes := h.contents i r hr
    simp only [viewSlice, Memory.readAll, hbytes]
    rfl

/-- Of one handle, both stores hold no buffer, the same buffer open, or the same buffer closed. -/
theorem Alike.buffer?_cases (h : Alike a a' l s s') (x : Handle) :
    (s.buffer? x = none ∧ s'.buffer? x = none) ∨
    ∃ (i : Nat) (r : Request), l.requests[i]? = some r ∧
      ((s.buffer? x = some (r.buffer i (a i r.total)) ∧
          s'.buffer? x = some (r.buffer i (a' i r.total))) ∨
        (s.buffer? x = some (r.buffer i (a i r.total)).close ∧
          s'.buffer? x = some (r.buffer i (a' i r.total)).close)) := by
  by_cases hx : x < l.owners.length
  · right
    have howner := List.getElem?_eq_getElem hx
    obtain ⟨r, b, hr, hb, hshape⟩ := h.left.buffer x _ howner
    obtain ⟨r', b', hr', hb', hshape'⟩ := h.right.buffer x _ howner
    have hreq : r = r' := Option.some.inj (hr.symm.trans hr')
    subst hreq
    have hclosed := h.closed x
    rw [hb, hb'] at hclosed
    refine ⟨_, r, hr, ?_⟩
    rw [hb, hb']
    -- one open and the other closed is what `closed` excludes
    rcases hshape with rfl | rfl <;> rcases hshape' with rfl | rfl
    · exact Or.inl ⟨rfl, rfl⟩
    · simp [Request.buffer, isClosed, Buffer.close] at hclosed
    · simp [Request.buffer, isClosed, Buffer.close] at hclosed
    · exact Or.inr ⟨rfl, rfl⟩
  · left
    have hle := Nat.le_of_not_lt hx
    exact ⟨List.getElem?_eq_none (h.left.length_buffers ▸ hle),
      List.getElem?_eq_none (h.right.length_buffers ▸ hle)⟩

/-- A handle is known in both stores or in neither. -/
theorem Alike.buffer?_none_or_some (h : Alike a a' l s s') (x : Handle) :
    (s.buffer? x = none ∧ s'.buffer? x = none) ∨
    ∃ b b', s.buffer? x = some b ∧ s'.buffer? x = some b' ∧ b.align = b'.align := by
  rcases h.buffer?_cases x with hnone | ⟨i, r, -, ⟨hb, hb'⟩ | ⟨hb, hb'⟩⟩
  · exact Or.inl hnone
  · exact Or.inr ⟨_, _, hb, hb', rfl⟩
  · exact Or.inr ⟨_, _, hb, hb', rfl⟩

/-- The windows of one handle match. -/
theorem Alike.window (h : Alike a a' l s s') (x : Option Handle) :
    Twin a a' l (s.window x) (s'.window x) := by
  cases x with
  | none => exact .none
  | some x =>
    unfold Store.window
    rcases h.buffer?_cases x with ⟨hb, hb'⟩ | ⟨i, r, hr, ⟨hb, hb'⟩ | ⟨hb, hb'⟩⟩
    · simp only [Option.bind_some, hb, hb']
      exact .none
    · simp only [Option.bind_some, hb, hb']
      exact .window hr
    · simp only [Option.bind_some, hb, hb']
      exact .none

end Windows

/-! ## looks -/

section Looks

variable {a a' : Allocator} {l : Ledger} {s s' : Store}

/-- Where the allocation of a request lies. -/
theorem Sound.placed {i : Nat} {r : Request} (hs : Sound a s l) (hp : s.memory.Placed)
    (hr : l.requests[i]? = some r) :
    a i r.total ≠ 0 ∧ (a i r.total).toNat + r.total ≤ 2 ^ 64 := by
  obtain ⟨content, hb, hpad⟩ := hs.block i r hr
  have hplaced := Memory.placed_iff.1 hp i _ hb
  rw [hpad.length_eq] at hplaced
  exact hplaced

/-- A buffer gives the address of its window. -/
theorem Sound.address_window {i : Nat} {r : Request} (hs : Sound a s l)
    (hr : l.requests[i]? = some r) :
    s.memory.address (r.window i (a i r.total)) = (r.buffer i (a i r.total)).addr := by
  obtain ⟨content, hb, -⟩ := hs.block i r hr
  simp only [Memory.address, Request.window, hb]
  rfl

/-- What is seen of an open buffer but for its bytes is read off its request. -/
theorem Sound.viewBuffer_open {i : Nat} {r : Request} (hs : Sound a s l) (hp : s.memory.Placed)
    (hr : l.requests[i]? = some r) :
    viewBuffer s.memory (some (r.buffer i (a i r.total))) =
      { window := ⟨s.memory.read (r.window i (a i r.total)), r.bytes, false⟩
        length := r.bytes
        closed := false
        hasAddress := true
        placement := some ⟨r.align, 0, if 0 < r.bytes then some true else none⟩ } := by
  have hgranted := hs.granted i r hr
  obtain ⟨hne, hend⟩ := hs.placed hp hr
  obtain ⟨content, hb, hpad⟩ := hs.block i r hr
  have haddr := (isOpen_buffer hgranted hb hpad.length_eq hne hend).addr_ne_zero
  have hfirst : atFirstByte s.memory (r.buffer i (a i r.total)) =
      if 0 < r.bytes then some true else none := by
    change (if 0 < r.bytes then
      some ((r.buffer i (a i r.total)).addr == s.memory.address (r.window i (a i r.total)))
      else none) = _
    rw [hs.address_window hr, beq_self_eq_true]
  have haddress : (r.buffer i (a i r.total)).address = (r.buffer i (a i r.total)).addr := rfl
  have hhas : hasAddressOf (some (r.buffer i (a i r.total))) = true := by
    simp [hasAddressOf, haddress, haddr]
  have halign : (r.buffer i (a i r.total)).align = r.align := rfl
  rw [viewBuffer, hhas, Option.map_some, hfirst, haddress, halign, hgranted.addr_mod i hend]
  rfl

/-- **Alike stores look the same** through every slot. -/
theorem Alike.viewBuffer_eq (h : Alike a a' l s s') (hp : s.memory.Placed)
    (hp' : s'.memory.Placed) (x : Option Handle) :
    viewBuffer s.memory (x.bind s.buffer?) = viewBuffer s'.memory (x.bind s'.buffer?) := by
  cases x with
  | none => rfl
  | some x =>
    rw [Option.bind_some, Option.bind_some]
    rcases h.buffer?_cases x with ⟨hb, hb'⟩ | ⟨i, r, hr, ⟨hb, hb'⟩ | ⟨hb, hb'⟩⟩
    · rw [hb, hb']
      rfl
    · rw [hb, hb', h.left.viewBuffer_open hp hr, h.right.viewBuffer_open hp' hr,
        h.contents i r hr]
    · rw [hb, hb']
      rfl

/-- The address of a window modulo the alignment it was asked for. -/
theorem Sound.residue?_window {i : Nat} {r : Request} (hs : Sound a s l) (hp : s.memory.Placed)
    (hr : l.requests[i]? = some r) :
    residue? s.memory (some (r.window i (a i r.total))) r.align =
      if 0 < r.bytes then some 0 else none := by
  change (if 0 < r.bytes then
    some (s.memory.address (r.window i (a i r.total)) % r.align.toUInt64) else none) = _
  rw [hs.address_window hr, (hs.granted i r hr).addr_mod i (hs.placed hp hr).2]

end Looks

/-! ## each operation keeps two stores alike -/

/-- What is read through a window after bytes were stored in it. -/
theorem read_storeAll {m : Memory} {v : Slice} {b : Block} (hb : m.blocks[v.block]? = some b)
    (hfit : v.start + v.length ≤ b.bytes.length) (k : Nat) (data : Bytes) :
    (m.storeAll v.block (v.start + k) data).read v = Bytes.overwrite (m.read v) k data := by
  have hlength : (m.read v).length = v.length := by
    simp only [Memory.read, hb, List.length_take, List.length_drop]
    omega
  apply List.ext_getElem?
  intro j
  by_cases hj : j < v.length
  · rw [Bytes.getElem?_overwrite (by omega)]
    simp only [Memory.read, blocks?_storeAll, hb, Option.map_some, if_true, List.getElem?_take,
      if_pos hj, List.getElem?_drop]
    rw [Bytes.getElem?_overwrite (by omega)]
    by_cases hin : k ≤ j ∧ j < k + data.length
    · rw [if_pos hin, if_pos (by omega)]
      congr 1
      omega
    · rw [if_neg hin, if_neg (by omega)]
  · have hright : (Bytes.overwrite (m.read v) k data)[j]? = none := by
      apply List.getElem?_eq_none
      rw [Bytes.length_overwrite]
      omega
    rw [hright]
    simp only [Memory.read, blocks?_storeAll, hb, Option.map_some, if_true, List.getElem?_take,
      if_neg hj]

/-- Lists that look the same through `f` still do with one more element each. -/
theorem getElem?_map_concat {α β : Type} {f : α → β} {xs ys : List α} {x y : α}
    (h : ∀ i : Nat, xs[i]?.map f = ys[i]?.map f) (hxy : f x = f y) (i : Nat) :
    (xs ++ [x])[i]?.map f = (ys ++ [y])[i]?.map f := by
  have hmap : xs.map f = ys.map f := by
    apply List.ext_getElem?
    intro i
    rw [List.getElem?_map, List.getElem?_map, h i]
  rw [← List.getElem?_map, ← List.getElem?_map, List.map_append, List.map_append, hmap,
    List.map_singleton, List.map_singleton, hxy]

section Operations

variable {a a' : Allocator} {l : Ledger} {s s' : Store} {w w' : Option Slice}

theorem Alike.length_buffers (h : Alike a a' l s s') : s'.buffers.length = s.buffers.length :=
  h.right.length_buffers.trans h.left.length_buffers.symm

/-- Naming a buffer keeps stores alike. -/
theorem Alike.setSlot (h : Alike a a' l s s') (slot : Bytes) (x : Option Handle) :
    Alike a a' l (s.setSlot slot x) (s'.setSlot slot x) where
  left := h.left.apply (x := .name slot x) trivial
  right := h.right.apply (x := .name slot x) trivial
  contents := h.contents
  closed := h.closed
  slots := by simp only [Store.setSlot, h.slots]
  holds := h.holds

theorem Twin.isWindow (hw : Twin a a' l w w') :
    (∀ v ∈ w, l.IsWindow a v) ∧ ∀ v ∈ w', l.IsWindow a' v := by
  cases hw with
  | none => exact ⟨fun v hv => (nomatch hv), fun v hv => (nomatch hv)⟩
  | @window i r hr =>
    constructor
    · intro v hv
      have hveq := Option.some.inj hv
      subst hveq
      exact ⟨r, hr, rfl⟩
    · intro v hv
      have hveq := Option.some.inj hv
      subst hveq
      exact ⟨r, hr, rfl⟩

/-- Keeping windows that match keeps stores alike. -/
theorem Alike.keep (h : Alike a a' l s s') (n : Bytes) (hw : Twin a a' l w w') :
    Alike a a' l (s.keep n w) (s'.keep n w') where
  left := h.left.keep n hw.isWindow.1
  right := h.right.keep n hw.isWindow.2
  contents := h.contents
  closed := h.closed
  slots := h.slots
  holds n' := by
    by_cases hn : n' = n
    · subst hn
      simp only [Store.keep, Bindings.get?_set_self]
      exact .some hw
    · simp only [Store.keep, Bindings.get?_set_of_ne _ _ hn]
      exact h.holds n'

theorem Alike.keepIf (h : Alike a a' l s s') (name : Option Bytes) (hw : Twin a a' l w w') :
    Alike a a' l (keepIf s name w) (keepIf s' name w') := by
  cases name with
  | none => exact h
  | some n => exact h.keep n hw

/-- Closing a handle in both keeps stores alike. -/
theorem Alike.close (h : Alike a a' l s s') (x : Handle) :
    Alike a a' l (s.close x) (s'.close x) where
  left := h.left.close x
  right := h.right.close x
  contents := h.contents
  closed y := by
    have hclosed : ∀ b : Buffer, (if x = y then b.close else b).isClosed =
        (x = y || b.isClosed : Bool) := by
      intro b
      by_cases hxy : x = y
      · simp only [hxy]
        rfl
      · simp [hxy]
    have hboth := congrArg (Option.map fun c => (x = y || c : Bool)) (h.closed y)
    rw [buffer?_close, buffer?_close]
    simp only [Option.map_map, Function.comp_def, hclosed] at hboth ⊢
    exact hboth
  slots := h.slots
  holds := h.holds

/-- Acquiring on both sides gives corresponding windows, both zero. -/
theorem Alike.acquire (h : Alike a a' l s s') {r : Request} (hr : r.Granted) :
    Alike a a' (l.after (.acquire r)) ((Action.acquire r).apply a s)
      ((Action.acquire r).apply a' s') where
  left := h.left.acquire hr
  right := h.right.acquire hr
  contents i r' hr' := by
    rcases getElem?_concat_cases hr' with hold | ⟨rfl, rfl⟩
    · obtain ⟨content, hb, -⟩ := h.left.block i r' hold
      obtain ⟨content', hb', -⟩ := h.right.block i r' hold
      have hread := Memory.read_congr (u := r'.window i (a i r'.total))
        ((blocks?_acquire hr a hb).trans hb.symm)
      have hread' := Memory.read_congr (u := r'.window i (a' i r'.total))
        ((blocks?_acquire hr a' hb').trans hb'.symm)
      rw [hread, hread']
      exact h.contents i r' hold
    · have hzero := read_acquire hr a s
      have hzero' := read_acquire hr a' s'
      rw [h.left.length_blocks] at hzero
      rw [h.right.length_blocks] at hzero'
      rw [hzero, hzero']
  closed x := by
    have hopen : ∀ n base, (r.buffer n base).isClosed = false := fun _ _ => rfl
    rw [apply_acquire hr, apply_acquire hr]
    exact getElem?_map_concat h.closed ((hopen _ _).trans (hopen _ _).symm) x
  slots := by
    rw [apply_acquire hr, apply_acquire hr]
    exact h.slots
  holds n := by
    rw [apply_acquire hr, apply_acquire hr]
    exact Twin.rel_after (h.holds n) _

/-- A copy of a buffer in both keeps stores alike. -/
theorem Alike.add (h : Alike a a' l s s') {x : Handle} {b b' : Buffer}
    (hb : s.buffer? x = some b) (hb' : s'.buffer? x = some b') :
    Alike a a' (l.after (.copy x)) (s.add b).1 (s'.add b').1 := by
  have hx : x < l.owners.length := by
    rw [← h.left.length_buffers]
    exact (List.getElem?_eq_some_iff.1 hb).1
  have hleft := h.left.copy hx
  have hright := h.right.copy hx
  have hclosed := h.closed x
  simp only [Action.apply, hb] at hleft
  simp only [Action.apply, hb'] at hright
  rw [hb, hb', Option.map_some, Option.map_some] at hclosed
  exact
    { left := hleft
      right := hright
      contents := h.contents
      closed := fun y => getElem?_map_concat h.closed (Option.some.inj hclosed) y
      slots := h.slots
      holds := fun n => Twin.rel_after (h.holds n) _ }

/-- Storing the same bytes at the same place of corresponding windows. -/
theorem Alike.store (h : Alike a a' l s s') {i : Nat} {r : Request} (hr : l.requests[i]? = some r)
    {k : Nat} {data : Bytes} (hin : ∀ j < data.length, k + j < r.bytes) :
    Alike a a' l
      { s with memory := s.memory.storeAll i (r.offset (a i r.total) + k) data }
      { s' with memory := s'.memory.storeAll i (r.offset (a' i r.total) + k) data } := by
  have hlegal : ∀ a : Allocator,
      (Action.store i (r.offset (a i r.total) + k) data).Legal a l := by
    intro a
    refine ⟨r, hr, fun j hlo hhi => ?_⟩
    have := hin (j - (r.offset (a i r.total) + k)) (by omega)
    omega
  have hread : ∀ {a : Allocator} {s : Store}, Sound a s l →
      (s.memory.storeAll i (r.offset (a i r.total) + k) data).read (r.window i (a i r.total)) =
        Bytes.overwrite (s.memory.read (r.window i (a i r.total))) k data := by
    intro a s hs
    obtain ⟨content, hb, hpad⟩ := hs.block i r hr
    have hinside := (hs.granted i r hr).offset_add_bytes_lt (a i r.total)
    have hfit : r.offset (a i r.total) + r.bytes ≤ content.length := by
      rw [hpad.length_eq]
      omega
    exact read_storeAll (v := r.window i (a i r.total)) hb hfit k data
  exact
    { left := h.left.store (hlegal a)
      right := h.right.store (hlegal a')
      contents := by
        intro i' r' hr'
        by_cases hi : i = i'
        · subst hi
          have hreq : r = r' := Option.some.inj (hr.symm.trans hr')
          subst hreq
          rw [hread h.left, hread h.right, h.contents i r hr]
        · have hother : ∀ (m : Memory) (place : Nat) (base : UInt64),
              (m.storeAll i place data).read (r'.window i' base) =
                m.read (r'.window i' base) := by
            intro m place base
            apply Memory.read_congr
            rw [blocks?_storeAll]
            change Option.map (fun b => if i = i' then _ else b) _ = _
            simp only [if_neg hi, Option.map_id']
          rw [hother, hother]
          exact h.contents i' r' hr'
      closed := h.closed
      slots := h.slots
      holds := h.holds }

/-- Windows that match have the same room behind an index. -/
theorem Twin.room_eq (hw : Twin a a' l w w') (index : Int64) :
    Slice.room w index = Slice.room w' index := by
  unfold Slice.room
  rw [hw.lengthOf_eq]

/-- A put through windows that match keeps stores alike. -/
theorem Alike.put (h : Alike a a' l s s') (hw : Twin a a' l w w') (index : Int64) (data : Bytes) :
    Alike a a' l { s with memory := (s.memory.put w index data).1 }
      { s' with memory := (s'.memory.put w' index data).1 } := by
  cases hw with
  | none => exact h
  | @window i r hr =>
    have hroom : Slice.room (some (r.window i (a i r.total))) index =
        if 0 ≤ index then r.bytes - index.toInt.toNat else 0 := rfl
    have hin : ∀ j < (data.take (Slice.room (some (r.window i (a i r.total))) index)).length,
        index.toInt.toNat + j < r.bytes := by
      intro j hj
      rw [List.length_take, hroom] at hj
      split at hj
      · omega
      · omega
    exact h.store hr hin

theorem Twin.put_snd_eq (hw : Twin a a' l w w') (m m' : Memory) (index : Int64) (data : Bytes) :
    (m.put w index data).2 = (m'.put w' index data).2 := by
  unfold Memory.put
  rw [hw.room_eq, hw.lengthOf_eq]

/-- What an append does to the window of a request, by the number of bytes. -/
theorem appendActions_window (r : Request) (i : Nat) (base : UInt64) (data : Bytes) :
    appendActions (some (r.window i base)) data =
      if r.bytes + data.length ≤ r.bytes then
        .store i (r.offset base + r.bytes) data ::
          if 0 < r.bytes + data.length then [.store i (r.offset base) [mark]] else []
      else [] := rfl

/-- Appending to corresponding windows: in place on both sides if nothing is appended, else to
copies. -/
theorem Alike.append (h : Alike a a' l s s') (hw : Twin a a' l w w') (data : Bytes) :
    Alike a a' l
      { s with memory := (s.memory.append w data).1.stamp mark (s.memory.append w data).2 }
      { s' with memory := (s'.memory.append w' data).1.stamp mark (s'.memory.append w' data).2 } := by
  rw [← replay_appendActions a, ← replay_appendActions a']
  cases hw with
  | none => exact h
  | @window i r hr =>
    rw [appendActions_window, appendActions_window]
    by_cases hfits : r.bytes + data.length ≤ r.bytes
    · have hempty : ∀ j < data.length, r.bytes + j < r.bytes := by omega
      have hstored := h.store hr hempty
      simp only [if_pos hfits, replay_cons]
      by_cases hpos : 0 < r.bytes + data.length
      · have hmark : ∀ j < [mark].length, 0 + j < r.bytes := by
          simp only [List.length_singleton]
          omega
        simp only [if_pos hpos]
        exact hstored.store hr hmark
      · simp only [if_neg hpos]
        exact hstored
    · simp only [if_neg hfits]
      exact h

/-- An append gives as many bytes as there were and as are new. -/
theorem length_append_snd (m : Memory) (w : Option Slice) (data : Bytes) :
    (m.append w data).2.length =
      if Slice.lengthOf w + data.length ≤ Slice.capacityOf w then Slice.lengthOf w + data.length
      else (m.readAll w).length + data.length := by
  unfold Memory.append
  split
  · next hfits =>
    cases w with
    | none =>
      simp only [Slice.lengthOf, Slice.capacityOf] at hfits ⊢
      simp only [Memory.Appended.length, Slice.lengthOf]
      omega
    | some v => rfl
  · exact List.length_append

theorem Alike.length_append (h : Alike a a' l s s') (hw : Twin a a' l w w') (data : Bytes) :
    (s.memory.append w data).2.length = (s'.memory.append w' data).2.length := by
  have hbytes : s.memory.readAll w = s'.memory.readAll w' :=
    congrArg SliceView.bytes (hw.viewSlice_eq h)
  rw [length_append_snd, length_append_snd, hw.lengthOf_eq, hw.capacityOf_eq, hbytes]

end Operations

/-! ## steps -/

/-- The results of the two sides: alike stores, and the same answer. -/
def Matching {β : Type} (a a' : Allocator) (x x' : Store × β) : Prop :=
  ∃ l, Alike a a' l x.1 x'.1 ∧ x.2 = x'.2

/-- A put that succeeds lets the body go on. -/
theorem Opening.body_of_put {o : Opening} {s : Store} {w : Option Slice} {m : Memory}
    (hput : s.memory.put w o.index o.data = (m, none))
    (rest : Store → SliceView → Option UInt64 → SliceView → Store × ScopeReport) :
    o.body rest s w = rest { keepIf s o.keepAs w with memory := m } (viewSlice s.memory w)
      (residue? s.memory w o.align) (viewSlice m w) := by
  have hkeep : (keepIf s o.keepAs w).memory = s.memory := by
    cases o.keepAs <;> rfl
  rw [Opening.body, hkeep, hput]

/-- A scope that is not refused ends in a store that is well placed only if its allocation is. -/
theorem Scope.placed_acquired {a : Allocator} {s : Store} (body : Scope)
    (hr : refusal? body.opening.size body.opening.align = none)
    (hp : (body.run a s).1.memory.Placed) : (body.opening.acquired a s).memory.Placed := by
  rw [Scope.run_fst] at hp
  cases body with
  | leaf o ending =>
    simp only [Scope.opening] at hr
    simp only [Scope.actions, hr, replay_cons] at hp
    exact placed_of_replay hp
  | nest o inner =>
    simp only [Scope.opening] at hr
    simp only [Scope.actions, hr, replay_cons] at hp
    exact placed_of_replay hp

section Steps

variable {a a' : Allocator} {l : Ledger} {s s' : Store} {w w' : Option Slice}

/-- An operation on a slot matches if it does for whatever the slot holds. -/
theorem Alike.withSlot (h : Alike a a' l s s') {f f' : Option Handle → Store × Answer}
    (hf : ∀ x, (f x).1.memory.Placed → (f' x).1.memory.Placed → Matching a a' (f x) (f' x))
    {slot : Bytes} (hp : (withSlot s slot f).1.memory.Placed)
    (hp' : (withSlot s' slot f').1.memory.Placed) :
    Matching a a' (withSlot s slot f) (withSlot s' slot f') := by
  unfold Buffer.withSlot at hp hp' ⊢
  rw [h.slots] at hp' ⊢
  cases hx : s.slots.get? slot with
  | none => exact ⟨l, h, rfl⟩
  | some x =>
    simp only [hx] at hp hp'
    exact hf x hp hp'

/-- An operation on a hold matches if it does for windows that match. -/
theorem Alike.withHold (h : Alike a a' l s s') {f f' : Option Slice → Store × Answer}
    (hf : ∀ w w', Twin a a' l w w' → (f w).1.memory.Placed → (f' w').1.memory.Placed →
      Matching a a' (f w) (f' w'))
    {name : Bytes} (hp : (withHold s name f).1.memory.Placed)
    (hp' : (withHold s' name f').1.memory.Placed) :
    Matching a a' (withHold s name f) (withHold s' name f') := by
  have hrel := h.holds name
  unfold Buffer.withHold at hp hp' ⊢
  cases hw : s.holds.get? name with
  | none =>
    cases hw' : s'.holds.get? name with
    | none => exact ⟨l, h, rfl⟩
    | some w' =>
      rw [hw, hw'] at hrel
      contradiction
  | some w =>
    cases hw' : s'.holds.get? name with
    | none =>
      rw [hw, hw'] at hrel
      contradiction
    | some w' =>
      simp only [hw] at hp
      simp only [hw'] at hp'
      rw [hw, hw'] at hrel
      cases hrel with
      | some htwin => exact hf w w' htwin hp hp'

theorem Alike.answerBuffer (h : Alike a a' l s s') (x : Option Handle) (hp : s.memory.Placed)
    (hp' : s'.memory.Placed) : Matching a a' (answerBuffer s x) (answerBuffer s' x) :=
  ⟨l, h, congrArg Answer.buffer (h.viewBuffer_eq hp hp' x)⟩

/-- A put through windows that match is answered alike. -/
theorem Alike.putThrough (h : Alike a a' l s s') (hw : Twin a a' l w w') (index : Int64)
    (data : Bytes) {view view' : Store → Answer}
    (hview : ∀ t t', Alike a a' l t t' → t.memory.Placed → t'.memory.Placed → view t = view' t')
    (hp : (putThrough s w index data view).1.memory.Placed)
    (hp' : (putThrough s' w' index data view').1.memory.Placed) :
    Matching a a' (putThrough s w index data view) (putThrough s' w' index data view') := by
  have halike := h.put hw index data
  have hfault := hw.put_snd_eq s.memory s'.memory index data
  unfold Buffer.putThrough at hp hp' ⊢
  cases hput : s.memory.put w index data with
  | mk m fault =>
    cases hput' : s'.memory.put w' index data with
    | mk m' fault' =>
      simp only [hput, hput'] at halike hfault hp hp' ⊢
      subst hfault
      cases fault with
      | none => exact ⟨l, halike, hview _ _ halike hp hp'⟩
      | some f => exact ⟨l, halike, rfl⟩

/-- The bodies of two scopes on corresponding windows. -/
theorem Alike.body (h : Alike a a' l s s') (hw : Twin a a' l w w') {o : Opening}
    (hresidue : residue? s.memory w o.align = residue? s'.memory w' o.align)
    {rest rest' : Store → SliceView → Option UInt64 → SliceView → Store × ScopeReport}
    (hrest : ∀ t t' first residue second, Alike a a' l t t' →
      (rest t first residue second).1.memory.Placed →
      (rest' t' first residue second).1.memory.Placed →
      Matching a a' (rest t first residue second) (rest' t' first residue second))
    (hp : (o.body rest s w).1.memory.Placed) (hp' : (o.body rest' s' w').1.memory.Placed) :
    Matching a a' (o.body rest s w) (o.body rest' s' w') := by
  have hkeep : ∀ (t : Store) (v : Option Slice), (Buffer.keepIf t o.keepAs v).memory = t.memory := by
    intro t v
    cases o.keepAs <;> rfl
  have halike := (h.keepIf o.keepAs hw).put hw o.index o.data
  have hfault := hw.put_snd_eq s.memory s'.memory o.index o.data
  rw [hkeep, hkeep] at halike
  cases hput : s.memory.put w o.index o.data with
  | mk m fault =>
    cases hput' : s'.memory.put w' o.index o.data with
    | mk m' fault' =>
      simp only [hput, hput'] at halike hfault
      subst hfault
      cases fault with
      | some f =>
        rw [Opening.body_of_fault hput, Opening.body_of_fault hput', hw.viewSlice_eq h, hresidue]
        exact ⟨l, halike, rfl⟩
      | none =>
        have hsecond : viewSlice m w = viewSlice m' w' := hw.viewSlice_eq halike
        rw [Opening.body_of_put hput] at hp ⊢
        rw [Opening.body_of_put hput'] at hp' ⊢
        rw [hw.viewSlice_eq h, hresidue, hsecond] at hp ⊢
        exact hrest _ _ _ _ _ halike hp hp'

/-- The same for the whole of two scopes, from the acquisition on. -/
theorem Alike.opening (h : Alike a a' l s s') {o : Opening}
    (hr : refusal? o.size o.align = none)
    {rest rest' : Store → SliceView → Option UInt64 → SliceView → Store × ScopeReport}
    (hrest : ∀ l t t' first residue second, Alike a a' l t t' →
      (rest t first residue second).1.memory.Placed →
      (rest' t' first residue second).1.memory.Placed →
      Matching a a' (rest t first residue second) (rest' t' first residue second))
    (hopened : (o.acquired a s).memory.Placed) (hopened' : (o.acquired a' s').memory.Placed)
    (hp : (o.body rest (o.acquired a s) (o.window a s)).1.memory.Placed)
    (hp' : (o.body rest' (o.acquired a' s') (o.window a' s')).1.memory.Placed) :
    Matching a a'
      ((o.body rest (o.acquired a s) (o.window a s)).1.close s.buffers.length,
        (o.body rest (o.acquired a s) (o.window a s)).2)
      ((o.body rest' (o.acquired a' s') (o.window a' s')).1.close s'.buffers.length,
        (o.body rest' (o.acquired a' s') (o.window a' s')).2) := by
  have hacquired := h.acquire (r := ⟨o.size, o.align⟩) hr
  have hwindow : Twin a a' (l.after (.acquire ⟨o.size, o.align⟩)) (o.window a s)
      (o.window a' s') := by
    rw [Opening.window, Opening.window, h.length_buffers]
    exact hacquired.window (some s.buffers.length)
  have hnew : (l.after (.acquire ⟨o.size, o.align⟩)).requests[l.requests.length]? =
      some ⟨o.size, o.align⟩ := List.getElem?_concat_length
  have hresidue : residue? (o.acquired a s).memory (o.window a s) o.align =
      residue? (o.acquired a' s').memory (o.window a' s') o.align := by
    rw [Opening.window_eq a s hr, Opening.window_eq a' s' hr, h.left.length_blocks,
      h.right.length_blocks]
    exact (hacquired.left.residue?_window hopened hnew).trans
      (hacquired.right.residue?_window hopened' hnew).symm
  obtain ⟨l', halike, hreport⟩ := hacquired.body hwindow hresidue
    (fun t t' first residue second => hrest _ t t' first residue second) hp hp'
  rw [h.length_buffers]
  exact ⟨l', halike.close _, hreport⟩

/-- **A scope reports the same on both sides**, however deep it is nested. -/
theorem Scope.alike (body : Scope) (h : Alike a a' l s s') (hp : (body.run a s).1.memory.Placed)
    (hp' : (body.run a' s').1.memory.Placed) :
    Matching a a' (body.run a s) (body.run a' s') := by
  induction body generalizing s s' l with
  | leaf o ending =>
    cases hr : refusal? o.size o.align with
    | some e =>
      simp only [Scope.run, Store.withBuffer, store_acquire_of_refusal hr]
      exact ⟨l, h, rfl⟩
    | none =>
      have hopened := Scope.placed_acquired (.leaf o ending) hr hp
      have hopened' := Scope.placed_acquired (.leaf o ending) hr hp'
      rw [Scope.run, withBuffer_eq a s hr] at hp ⊢
      rw [Scope.run, withBuffer_eq a' s' hr] at hp' ⊢
      exact h.opening hr (fun l t t' _ _ _ ht _ _ => ⟨l, ht, rfl⟩) hopened hopened' hp hp'
  | nest o inner ih =>
    cases hr : refusal? o.size o.align with
    | some e =>
      simp only [Scope.run, Store.withBuffer, store_acquire_of_refusal hr]
      exact ⟨l, h, rfl⟩
    | none =>
      have hopened := Scope.placed_acquired (.nest o inner) hr hp
      have hopened' := Scope.placed_acquired (.nest o inner) hr hp'
      rw [Scope.run, withBuffer_eq a s hr] at hp ⊢
      rw [Scope.run, withBuffer_eq a' s' hr] at hp' ⊢
      refine h.opening hr ?_ hopened hopened' hp hp'
      intro l t t' first residue second ht hinner hinner'
      obtain ⟨l', halike, hreport⟩ := ih ht hinner hinner'
      exact ⟨l', halike, congrArg (ScopeReport.nested first residue second) hreport⟩

/-- **A step answers the same on both sides** and leaves alike stores. -/
theorem Step.alike (step : Step) (h : Alike a a' l s s') (hp : (step.run a s).1.memory.Placed)
    (hp' : (step.run a' s').1.memory.Placed) :
    Matching a a' (step.run a s) (step.run a' s') := by
  cases step with
  | acquire slot size align =>
    cases hr : refusal? size align with
    | some e =>
      simp only [Step.run, store_acquire_of_refusal hr]
      exact ⟨l, h, rfl⟩
    | none =>
      simp only [Step.run, store_acquire_eq (r := ⟨size, align⟩) hr, h.length_buffers] at hp hp' ⊢
      exact ((h.acquire (r := ⟨size, align⟩) hr).setSlot slot _).answerBuffer _ hp hp'
  | clear slot => exact (h.setSlot slot none).answerBuffer none hp hp'
  | share slot source =>
    exact h.withSlot (fun x hx hx' => (h.setSlot slot x).answerBuffer x hx hx') hp hp'
  | clone slot source =>
    refine h.withSlot (fun x hx hx' => ?_) hp hp'
    cases x with
    | none => exact ⟨l, h, rfl⟩
    | some y =>
      rcases h.buffer?_none_or_some y with ⟨hb, hb'⟩ | ⟨b, b', hb, hb', -⟩
      · simp only [Option.bind_some, hb, hb']
        exact ⟨l, h, rfl⟩
      · have hcopy : (s'.add b').2 = (s.add b).2 := h.length_buffers
        simp only [Option.bind_some, hb] at hx ⊢
        simp only [Option.bind_some, hb', hcopy] at hx' ⊢
        exact ((h.add hb hb').setSlot slot _).answerBuffer _ hx hx'
  | get slot => exact h.withSlot (fun x hx hx' => h.answerBuffer x hx hx') hp hp'
  | close slot =>
    refine h.withSlot (fun x hx hx' => ?_) hp hp'
    cases x with
    | none => exact h.answerBuffer none hx hx'
    | some x => exact (h.close x).answerBuffer (some x) hx hx'
  | align slot =>
    refine h.withSlot (fun x hx hx' => ?_) hp hp'
    cases x with
    | none => exact ⟨l, h, rfl⟩
    | some y =>
      rcases h.buffer?_none_or_some y with ⟨hb, hb'⟩ | ⟨b, b', hb, hb', halign⟩
      · simp only [Option.bind_some, hb, hb']
        exact ⟨l, h, rfl⟩
      · simp only [Option.bind_some, hb, hb']
        exact ⟨l, h, congrArg Answer.align halign⟩
  | length slot =>
    refine h.withSlot (fun x hx hx' => ?_) hp hp'
    exact ⟨l, h, congrArg (fun v => Answer.length v.length) (h.viewBuffer_eq hx hx' x)⟩
  | closed slot =>
    refine h.withSlot (fun x hx hx' => ?_) hp hp'
    exact ⟨l, h, congrArg (fun v => Answer.closed v.closed) (h.viewBuffer_eq hx hx' x)⟩
  | hasAddress slot =>
    refine h.withSlot (fun x hx hx' => ?_) hp hp'
    exact ⟨l, h, congrArg (fun v => Answer.hasAddress v.hasAddress) (h.viewBuffer_eq hx hx' x)⟩
  | put slot index data =>
    refine h.withSlot (fun x hx hx' => ?_) hp hp'
    refine h.putThrough (h.window x) index data (fun t t' ht htp htp' => ?_) hx hx'
    exact congrArg Answer.buffer (ht.viewBuffer_eq htp htp' x)
  | append slot data =>
    refine h.withSlot (fun x hx hx' => ?_) hp hp'
    have halike := h.append (h.window x) data
    refine ⟨l, halike, ?_⟩
    exact congrArg₂ Answer.appended (halike.viewBuffer_eq hx hx' x)
      (h.length_append (h.window x) data)
  | hold slot name =>
    refine h.withSlot (fun x _ _ => ?_) hp hp'
    exact ⟨l, h.keep name (h.window x), congrArg Answer.slice ((h.window x).viewSlice_eq h)⟩
  | held name =>
    refine h.withHold (fun w w' hw _ _ => ?_) hp hp'
    exact ⟨l, h, congrArg Answer.slice (hw.viewSlice_eq h)⟩
  | putHeld name index data =>
    refine h.withHold (fun w w' hw hx hx' => ?_) hp hp'
    refine h.putThrough hw index data (fun t t' ht _ _ => ?_) hx hx'
    exact congrArg Answer.slice (hw.viewSlice_eq ht)
  | scope body =>
    obtain ⟨l', halike, hreport⟩ := body.alike h hp hp'
    exact ⟨l', halike, congrArg Answer.scope hreport⟩

end Steps

/-! ## runs -/

/-- Stores that are alike answer all steps alike, as long as all blocks are placed. -/
theorem runSteps_alike {a a' : Allocator} {l : Ledger} {s s' : Store} (h : Alike a a' l s s')
    (steps : List Step) (hp : (runSteps a s steps).1.memory.Placed)
    (hp' : (runSteps a' s' steps).1.memory.Placed) :
    Matching a a' (runSteps a s steps) (runSteps a' s' steps) := by
  induction steps generalizing s s' l with
  | nil => exact ⟨l, h, rfl⟩
  | cons step rest ih =>
    have hnext : (step.run a s).1.memory.Placed := by
      rw [runSteps_eq_replay, trace, replay_append, ← Step.run_fst] at hp
      exact placed_of_replay hp
    have hnext' : (step.run a' s').1.memory.Placed := by
      rw [runSteps_eq_replay, trace, replay_append, ← Step.run_fst] at hp'
      exact placed_of_replay hp'
    obtain ⟨l₁, halike, hanswer⟩ := step.alike h hnext hnext'
    obtain ⟨l₂, hlast, hanswers⟩ := ih halike hp hp'
    exact ⟨l₂, hlast, congrArg₂ List.cons hanswer hanswers⟩

/-- **What a run answers does not depend on where its allocations lie**, as long as each has an
address and ends within the address space. -/
theorem answers_eq_of_placed (a a' : Allocator) (steps : List Step)
    (hp : (runSteps a .empty steps).1.memory.Placed)
    (hp' : (runSteps a' .empty steps).1.memory.Placed) :
    (runSteps a .empty steps).2 = (runSteps a' .empty steps).2 := by
  obtain ⟨_, _, hanswers⟩ := runSteps_alike (alike_empty a a') steps hp hp'
  exact hanswers

/-- Every run of an allocator that always answers well is well placed. -/
theorem placed_runSteps {a : Allocator} (ha : a.Valid) (steps : List Step) :
    (runSteps a .empty steps).1.memory.Placed := by
  have hsound := (sound_empty a).replay (trace_legal (sound_empty a) steps)
  rw [← runSteps_eq_replay] at hsound
  rw [Memory.placed_iff]
  intro i k hk
  have hlt := (List.getElem?_eq_some_iff.1 hk).1
  rw [hsound.length_blocks] at hlt
  have hr := List.getElem?_eq_getElem hlt
  obtain ⟨content, hb, hpad⟩ := hsound.block i _ hr
  have hblock := Option.some.inj (hk.symm.trans hb)
  subst hblock
  rw [hpad.length_eq]
  exact ha i _ (hsound.granted i _ hr).total_lt

/-- Every allocation ends with the last byte of the address space. -/
def highest : Allocator := fun _ n => (UInt64.size - n).toUInt64

/-- A put that runs out of its window, a window kept beyond its buffer, a copy that is marked, and a
scope in a scope whose body aborts. -/
def mixedRun : List Step :=
  [.acquire [97] 3 64, .put [97] 1 [5, 6, 7], .hold [97] [107], .clone [98] [97], .close [97],
    .append [98] [], .held [107], .get [98],
    .scope (.nest ⟨4, 16, some [107], 0, [1, 2]⟩ (.leaf ⟨1, 1, none, 5, [3]⟩ .finish))]

/-- Two allocators that place blocks differently, and the same answers. -/
theorem answers_mixedRun :
    (runSteps .spread .empty mixedRun).1 ≠ (runSteps highest .empty mixedRun).1 ∧
    (runSteps .spread .empty mixedRun).1.memory.Placed ∧
    (runSteps highest .empty mixedRun).1.memory.Placed ∧
    (runSteps .spread .empty mixedRun).2 = (runSteps highest .empty mixedRun).2 := by
  have hspread := placed_runSteps spread_valid mixedRun
  have hhighest : (runSteps highest .empty mixedRun).1.memory.Placed := by decide +kernel
  exact ⟨by decide +kernel, hspread, hhighest,
    answers_eq_of_placed .spread highest mixedRun hspread hhighest⟩

end Buffer

end ArgLine
