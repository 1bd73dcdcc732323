import ArgLine.Proofs.Buffer.Trace
import ArgLine.Proofs.Text.Bytes

/-!
# ArgLine.Proofs.Buffer.Ledger

What holds of a store at every moment of a run.

A `Ledger` records what was asked for: the request behind each allocation, and the
allocation behind each buffer.  It is read off the actions alone.  `Sound` ties a
store to its ledger:

* every allocation has the length that was asked for and is zero outside its window;
* every buffer is the one cut out of its allocation, or that buffer closed;
* every kept slice is the window of an allocation.

An action is `Legal` if it stores within a window and keeps nothing but windows.
`Sound.apply` says that legal actions keep a store sound, `Step.legal` that a step
takes only legal ones from a sound store, and `sound_moment` puts the two together.
-/

namespace ArgLine

namespace Request

/-- The bytes of an allocation with nothing but zeros around the window. -/
structure Padded (r : Request) (base : UInt64) (content : Bytes) : Prop where
  length_eq : content.length = r.total
  zero : ∀ j < r.total, j < r.offset base ∨ r.offset base + r.bytes ≤ j → content[j]? = some 0

/-- A fresh allocation has zeros around its window, as it has everywhere. -/
theorem padded_block (r : Request) (base : UInt64) : r.Padded base (r.block base).bytes where
  length_eq := List.length_replicate
  zero j hj _ := by
    change (List.replicate r.total (0 : UInt8))[j]? = some 0
    rw [List.getElem?_replicate, if_pos hj]

/-- Overwriting bytes of the window leaves the padding alone. -/
theorem Padded.overwrite {r : Request} {base : UInt64} {content data : Bytes} {place : Nat}
    (h : r.Padded base content)
    (hin : ∀ j, place ≤ j → j < place + data.length →
      r.offset base ≤ j ∧ j < r.offset base + r.bytes) :
    r.Padded base (Bytes.overwrite content place data) where
  length_eq := by rw [Bytes.length_overwrite, h.length_eq]
  zero j hj hout := by
    have hlt : j < content.length := by rw [h.length_eq]; exact hj
    have hmiss : ¬ (place ≤ j ∧ j < place + data.length) := by
      intro hmem
      have := hin j hmem.1 hmem.2
      omega
    rw [Bytes.getElem?_overwrite hlt, if_neg hmiss]
    exact h.zero j hj hout

end Request

namespace Buffer

/-- What was asked for so far. -/
structure Ledger where
  /-- The request behind each allocation. -/
  requests : List Request
  /-- The allocation behind each buffer. -/
  owners : List Nat
  deriving DecidableEq, Repr

namespace Ledger

def empty : Ledger := ⟨[], []⟩

/-- Records an action: a new buffer has an allocation of its own, a copy that of its source. -/
def after (l : Ledger) : Action → Ledger
  | .acquire r => ⟨l.requests ++ [r], l.owners ++ [l.requests.length]⟩
  | .copy h => ⟨l.requests, l.owners ++ (l.owners[h]?).toList⟩
  | .close _ | .store .. | .name .. | .keep .. => l

def afterAll (l : Ledger) (actions : List Action) : Ledger := actions.foldl after l

@[simp] theorem afterAll_nil (l : Ledger) : l.afterAll [] = l := rfl

@[simp] theorem afterAll_cons (l : Ledger) (x : Action) (xs : List Action) :
    l.afterAll (x :: xs) = (l.after x).afterAll xs := rfl

@[simp] theorem afterAll_append (l : Ledger) (xs ys : List Action) :
    l.afterAll (xs ++ ys) = (l.afterAll xs).afterAll ys := List.foldl_append

/-- The buffer of a handle was cut out of the `i`-th allocation, which was made for `r`. -/
def Origin (l : Ledger) (h : Handle) (i : Nat) (r : Request) : Prop :=
  l.owners[h]? = some i ∧ l.requests[i]? = some r

/-- The slice is the window of an allocation. -/
def IsWindow (a : Allocator) (l : Ledger) (v : Slice) : Prop :=
  ∃ r, l.requests[v.block]? = some r ∧ v = r.window v.block (a v.block r.total)

/-- Nothing that is on record is ever struck off. -/
theorem requests_after {l : Ledger} {i : Nat} {r : Request} (h : l.requests[i]? = some r)
    (x : Action) : (l.after x).requests[i]? = some r := by
  cases x with
  | acquire r' =>
    have hlt := (List.getElem?_eq_some_iff.1 h).1
    exact (List.getElem?_append_left hlt).trans h
  | copy h' => exact h
  | close h' => exact h
  | store block place data => exact h
  | name slot h' => exact h
  | keep n w => exact h

theorem owners_after {l : Ledger} {h : Handle} {i : Nat} (hi : l.owners[h]? = some i)
    (x : Action) : (l.after x).owners[h]? = some i := by
  have hlt := (List.getElem?_eq_some_iff.1 hi).1
  cases x with
  | acquire r => exact (List.getElem?_append_left hlt).trans hi
  | copy h' => exact (List.getElem?_append_left hlt).trans hi
  | close h' => exact hi
  | store block place data => exact hi
  | name slot h' => exact hi
  | keep n w => exact hi

theorem Origin.after {l : Ledger} {h : Handle} {i : Nat} {r : Request} (ho : l.Origin h i r)
    (x : Action) : (l.after x).Origin h i r :=
  ⟨owners_after ho.1 x, requests_after ho.2 x⟩

theorem Origin.afterAll {l : Ledger} {h : Handle} {i : Nat} {r : Request} (ho : l.Origin h i r)
    (xs : List Action) : (l.afterAll xs).Origin h i r := by
  induction xs generalizing l with
  | nil => exact ho
  | cons x xs ih => exact ih (ho.after x)

theorem IsWindow.after {a : Allocator} {l : Ledger} {v : Slice} (hv : l.IsWindow a v)
    (x : Action) : (l.after x).IsWindow a v := by
  obtain ⟨r, hr, hw⟩ := hv
  exact ⟨r, requests_after hr x, hw⟩

end Ledger

/-! ## sound stores -/

/-- The store is what its ledger says. -/
structure Sound (a : Allocator) (s : Store) (l : Ledger) : Prop where
  granted : ∀ (i : Nat) (r : Request), l.requests[i]? = some r → r.Granted
  length_blocks : s.memory.blocks.length = l.requests.length
  block : ∀ (i : Nat) (r : Request), l.requests[i]? = some r → ∃ content,
    s.memory.blocks[i]? = some ⟨a i r.total, content⟩ ∧ r.Padded (a i r.total) content
  length_buffers : s.buffers.length = l.owners.length
  buffer : ∀ (h : Handle) (i : Nat), l.owners[h]? = some i → ∃ r b, l.requests[i]? = some r ∧
    s.buffer? h = some b ∧
      (b = r.buffer i (a i r.total) ∨ b = (r.buffer i (a i r.total)).close)
  hold : ∀ n v, s.holds.get? n = some (some v) → l.IsWindow a v

theorem sound_empty (a : Allocator) : Sound a .empty .empty where
  granted i r h := by simp [Ledger.empty] at h
  length_blocks := rfl
  block i r h := by simp [Ledger.empty] at h
  length_buffers := rfl
  buffer h i hi := by simp [Ledger.empty] at hi
  hold n v h := by simp [Store.empty] at h

/-- What an action needs so that the store stays sound. -/
def Action.Legal (a : Allocator) (l : Ledger) : Action → Prop
  | .acquire r => r.Granted
  | .copy h => h < l.owners.length
  | .store block place data => ∃ r, l.requests[block]? = some r ∧
    ∀ j, place ≤ j → j < place + data.length →
      r.offset (a block r.total) ≤ j ∧ j < r.offset (a block r.total) + r.bytes
  | .keep _ w => ∀ v ∈ w, l.IsWindow a v
  | .close _ | .name .. => True

/-- Each action is legal where it is carried out. -/
def LegalAll (a : Allocator) (l : Ledger) : List Action → Prop
  | [] => True
  | x :: xs => x.Legal a l ∧ LegalAll a (l.after x) xs

/-- Actions are legal in two parts, the second after what the first leave. -/
theorem legalAll_append {a : Allocator} {l : Ledger} {xs ys : List Action} :
    LegalAll a l (xs ++ ys) ↔ LegalAll a l xs ∧ LegalAll a (l.afterAll xs) ys := by
  induction xs generalizing l with
  | nil => simp [LegalAll]
  | cons x xs ih =>
    rw [List.cons_append, LegalAll, ih, LegalAll, Ledger.afterAll_cons]
    exact and_assoc.symm

/-! ## each action keeps a store sound -/

/-- What stands in a list with one more element stood there before or is that element. -/
theorem getElem?_concat_cases {α : Type} {xs : List α} {x y : α} {i : Nat}
    (h : (xs ++ [x])[i]? = some y) : xs[i]? = some y ∨ i = xs.length ∧ y = x := by
  rw [List.getElem?_append] at h
  split at h
  · exact Or.inl h
  · have hi : i - xs.length = 0 := by
      have := (List.getElem?_eq_some_iff.1 h).1
      simpa using this
    rw [hi] at h
    exact Or.inr ⟨by omega, by simpa using h.symm⟩

theorem buffer?_close (s : Store) (h h' : Handle) :
    (s.close h).buffer? h' = (s.buffer? h').map fun b => if h = h' then b.close else b :=
  List.getElem?_modify ..

theorem blocks?_storeAll (m : Memory) (block place : Nat) (data : Bytes) (i : Nat) :
    (m.storeAll block place data).blocks[i]? = m.blocks[i]?.map fun b =>
      if block = i then { b with bytes := Bytes.overwrite b.bytes place data } else b :=
  List.getElem?_modify ..

theorem close_close (b : Buffer) : b.close.close = b.close := rfl

section Preservation

variable {a : Allocator} {s : Store} {l : Ledger}

/-- Acquiring keeps a store sound. -/
theorem Sound.acquire (hs : Sound a s l) {r : Request} (hr : r.Granted) :
    Sound a ((Action.acquire r).apply a s) (l.after (.acquire r)) := by
  rw [apply_acquire hr]
  have hblocks := hs.length_blocks
  have hbuffers := hs.length_buffers
  constructor
  · intro i r' h
    rcases getElem?_concat_cases h with hold | ⟨-, rfl⟩
    · exact hs.granted i r' hold
    · exact hr
  · simp [Ledger.after, hblocks]
  · intro i r' h
    rcases getElem?_concat_cases h with hold | ⟨rfl, rfl⟩
    · obtain ⟨content, hb, hpad⟩ := hs.block i r' hold
      have hlt := (List.getElem?_eq_some_iff.1 hb).1
      exact ⟨content, (List.getElem?_append_left hlt).trans hb, hpad⟩
    · rw [← hblocks]
      exact ⟨_, List.getElem?_concat_length, r'.padded_block _⟩
  · simp [Ledger.after, hbuffers]
  · intro h i hi
    rcases getElem?_concat_cases hi with hold | ⟨rfl, rfl⟩
    · obtain ⟨r', b, hr', hb, hshape⟩ := hs.buffer h i hold
      have hlt := (List.getElem?_eq_some_iff.1 hb).1
      exact ⟨r', b, Ledger.requests_after hr' _, (List.getElem?_append_left hlt).trans hb, hshape⟩
    · refine ⟨r, _, List.getElem?_concat_length, ?_, Or.inl rfl⟩
      rw [← hbuffers, ← hblocks]
      exact List.getElem?_concat_length
  · intro n v hv
    exact (hs.hold n v hv).after _

/-- Copying a buffer keeps a store sound, since the copy has the origin of the buffer. -/
theorem Sound.copy (hs : Sound a s l) {h : Handle} (hh : h < l.owners.length) :
    Sound a ((Action.copy h).apply a s) (l.after (.copy h)) := by
  obtain ⟨r, b, hr, hb, hshape⟩ := hs.buffer h l.owners[h] (List.getElem?_eq_getElem hh)
  have happly : (Action.copy h).apply a s = { s with buffers := s.buffers ++ [b] } := by
    rw [Action.apply, hb]
    rfl
  have hafter : l.after (.copy h) = ⟨l.requests, l.owners ++ [l.owners[h]]⟩ := by
    rw [Ledger.after, List.getElem?_eq_getElem hh]
    rfl
  rw [happly, hafter]
  refine ⟨hs.granted, hs.length_blocks, hs.block, ?_, ?_, hs.hold⟩
  · simp [hs.length_buffers]
  · intro h' i hi
    rcases getElem?_concat_cases hi with hold | ⟨rfl, rfl⟩
    · obtain ⟨r', b', hr', hb', hshape'⟩ := hs.buffer h' i hold
      have hlt := (List.getElem?_eq_some_iff.1 hb').1
      exact ⟨r', b', hr', (List.getElem?_append_left hlt).trans hb', hshape'⟩
    · rw [← hs.length_buffers]
      exact ⟨r, b, hr, List.getElem?_concat_length, hshape⟩

/-- Closing keeps a store sound. -/
theorem Sound.close (hs : Sound a s l) (h : Handle) : Sound a (s.close h) l := by
  refine ⟨hs.granted, hs.length_blocks, hs.block, ?_, ?_, hs.hold⟩
  · simp [Store.close, hs.length_buffers]
  · intro h' i hi
    obtain ⟨r, b, hr, hb, hshape⟩ := hs.buffer h' i hi
    refine ⟨r, if h = h' then b.close else b, hr, ?_, ?_⟩
    · rw [buffer?_close, hb]
      rfl
    · split
      · rcases hshape with rfl | rfl
        · exact Or.inr rfl
        · exact Or.inr (close_close _)
      · exact hshape

/-- Storing within a window keeps a store sound. -/
theorem Sound.store (hs : Sound a s l) {block place : Nat} {data : Bytes}
    (hlegal : (Action.store block place data).Legal a l) :
    Sound a ((Action.store block place data).apply a s) l := by
  obtain ⟨r, hr, hin⟩ := hlegal
  refine ⟨hs.granted, ?_, ?_, hs.length_buffers, hs.buffer, hs.hold⟩
  · simp [Action.apply, Memory.storeAll, hs.length_blocks]
  · intro i r' hr'
    obtain ⟨content, hb, hpad⟩ := hs.block i r' hr'
    simp only [Action.apply, blocks?_storeAll, hb, Option.map_some]
    by_cases hi : block = i
    · subst hi
      have hreq : r = r' := Option.some.inj (hr.symm.trans hr')
      subst hreq
      exact ⟨_, by rw [if_pos rfl], hpad.overwrite hin⟩
    · exact ⟨content, by rw [if_neg hi], hpad⟩

/-- Keeping a window keeps a store sound. -/
theorem Sound.keep (hs : Sound a s l) (n : Bytes) {w : Option Slice}
    (hw : ∀ v ∈ w, l.IsWindow a v) : Sound a (s.keep n w) l := by
  refine ⟨hs.granted, hs.length_blocks, hs.block, hs.length_buffers, hs.buffer, ?_⟩
  intro n' v hv
  by_cases hn : n' = n
  · subst hn
    rw [Store.keep, Bindings.get?_set_self] at hv
    exact hw v (Option.some.inj hv)
  · rw [Store.keep, Bindings.get?_set_of_ne _ _ hn] at hv
    exact hs.hold n' v hv

/-- **One legal action keeps a store sound.** -/
theorem Sound.apply (hs : Sound a s l) {x : Action} (hx : x.Legal a l) :
    Sound a (x.apply a s) (l.after x) := by
  cases x with
  | acquire r => exact hs.acquire hx
  | copy h => exact hs.copy hx
  | close h => exact hs.close h
  | store block place data => exact hs.store hx
  | name slot h =>
    exact ⟨hs.granted, hs.length_blocks, hs.block, hs.length_buffers, hs.buffer, hs.hold⟩
  | keep n w => exact hs.keep n hx

/-- **Legal actions keep a store sound**, however many they are. -/
theorem Sound.replay (hs : Sound a s l) {xs : List Action} (hxs : LegalAll a l xs) :
    Sound a (replay a s xs) (l.afterAll xs) := by
  induction xs generalizing s l with
  | nil => exact hs
  | cons x xs ih => exact ih (hs.apply hxs.1) hxs.2

end Preservation

/-! ## a step takes legal actions only -/

section Legality

variable {a : Allocator} {s : Store} {l : Ledger}

/-- The window of a buffer in a sound store is the window of its allocation. -/
theorem Sound.window (hs : Sound a s l) {h : Option Handle} {v : Slice}
    (hv : v ∈ s.window h) : l.IsWindow a v := by
  have hv' : s.window h = some v := hv
  unfold Store.window at hv'
  cases h with
  | none => simp at hv'
  | some h =>
    cases hb : s.buffer? h with
    | none => simp [hb] at hv'
    | some b =>
      have hlt : h < s.buffers.length := (List.getElem?_eq_some_iff.1 hb).1
      rw [hs.length_buffers] at hlt
      obtain ⟨r, b', hr, hb', hshape⟩ := hs.buffer h l.owners[h] (List.getElem?_eq_getElem hlt)
      have hbb : b' = b := Option.some.inj (hb'.symm.trans hb)
      have hwin : b.window = some v := by simpa [hb] using hv'
      rcases hshape with hopen | hclosed
      · rw [← hbb, hopen] at hwin
        have hveq : r.window l.owners[h] (a l.owners[h] r.total) = v := Option.some.inj hwin
        subst hveq
        exact ⟨r, hr, rfl⟩
      · rw [← hbb, hclosed] at hwin
        simp [Buffer.close] at hwin

/-- A put stores within the window that it is given. -/
theorem legal_putActions {w : Option Slice} (hw : ∀ v ∈ w, l.IsWindow a v) (index : Int64)
    (data : Bytes) : LegalAll a l (putActions w index data) := by
  cases w with
  | none => trivial
  | some v =>
    obtain ⟨r, hr, hv⟩ := hw v rfl
    have hstart : v.start = r.offset (a v.block r.total) := congrArg Slice.start hv
    have hlength : v.length = r.bytes := congrArg Slice.length hv
    refine ⟨⟨r, hr, ?_⟩, trivial⟩
    intro j hlo hhi
    have hroom : Slice.room (some v) index = if 0 ≤ index then v.length - index.toInt.toNat else 0 :=
      rfl
    rw [List.length_take, hroom] at hhi
    split at hhi
    · omega
    · omega

/-- An append stores within the window that it is given. -/
theorem legal_appendActions {w : Option Slice} (hw : ∀ v ∈ w, l.IsWindow a v) (data : Bytes) :
    LegalAll a l (appendActions w data) := by
  cases w with
  | none => trivial
  | some v =>
    obtain ⟨r, hr, hv⟩ := hw v rfl
    have hstart : v.start = r.offset (a v.block r.total) := congrArg Slice.start hv
    have hlength : v.length = r.bytes := congrArg Slice.length hv
    have hcapacity : v.capacity = r.bytes := congrArg Slice.capacity hv
    simp only [appendActions]
    split
    · -- a window cannot grow, so only nothing is appended in place
      refine ⟨⟨r, hr, ?_⟩, ?_⟩
      · intro j hlo hhi
        omega
      · split
        · refine ⟨⟨r, hr, ?_⟩, trivial⟩
          intro j hlo hhi
          rw [List.length_singleton] at hhi
          omega
        · trivial
    · trivial

theorem legal_keepActions {w : Option Slice} (hw : ∀ v ∈ w, l.IsWindow a v)
    (name : Option Bytes) : LegalAll a l (keepActions name w) := by
  cases name with
  | none => trivial
  | some n => exact ⟨hw, trivial⟩

theorem afterAll_keepActions (l : Ledger) (name : Option Bytes) (w : Option Slice) :
    l.afterAll (keepActions name w) = l := by
  cases name <;> rfl

/-- An opening stores within the window that it is lent. -/
theorem legal_opening {w : Option Slice} (hw : ∀ v ∈ w, l.IsWindow a v) (o : Opening) :
    LegalAll a l (o.actions w) := by
  rw [Opening.actions, legalAll_append, afterAll_keepActions]
  exact ⟨legal_keepActions hw _, legal_putActions hw _ _⟩

/-- A scope opens with a legal acquisition, and its body writes to the window it was given. -/
theorem Scope.legal (hs : Sound a s l) (body : Scope) : LegalAll a l (body.actions a s) := by
  induction body generalizing s l with
  | leaf o ending =>
    unfold Scope.actions
    cases hr : refusal? o.size o.align with
    | some e => trivial
    | none =>
      have hgranted : Request.Granted ⟨o.size, o.align⟩ := hr
      have hopened := hs.acquire hgranted
      refine ⟨hgranted, legalAll_append.2 ⟨?_, ?_⟩⟩
      · exact legal_opening (fun v hv => hopened.window hv) o
      · exact ⟨trivial, trivial⟩
  | nest o inner ih =>
    unfold Scope.actions
    cases hr : refusal? o.size o.align with
    | some e => trivial
    | none =>
      have hgranted : Request.Granted ⟨o.size, o.align⟩ := hr
      have hopened := hs.acquire hgranted
      have hbody : LegalAll a (l.after (.acquire ⟨o.size, o.align⟩))
          (o.actions (o.window a s)) := legal_opening (fun v hv => hopened.window hv) o
      refine ⟨hgranted, legalAll_append.2 ⟨legalAll_append.2 ⟨hbody, ?_⟩, ?_⟩⟩
      · split
        · exact ih (hopened.replay hbody)
        · trivial
      · exact ⟨trivial, trivial⟩

theorem legal_elim {α : Type} {x : Option α} {k : α → List Action}
    (h : ∀ y, LegalAll a l (k y)) : LegalAll a l (x.elim [] k) := by
  cases x with
  | none => trivial
  | some y => exact h y

/-- **A step takes only legal actions from a sound store.** -/
theorem Step.legal (hs : Sound a s l) (step : Step) : LegalAll a l (step.actions a s) := by
  cases step with
  | acquire slot size align =>
    simp only [Step.actions]
    cases hr : refusal? size align with
    | some e => trivial
    | none => exact ⟨hr, trivial, trivial⟩
  | clear slot => exact ⟨trivial, trivial⟩
  | share slot source => exact legal_elim fun h => ⟨trivial, trivial⟩
  | clone slot source =>
    refine legal_elim fun h => ?_
    cases h with
    | none => trivial
    | some h =>
      simp only [copyActions]
      split
      · next hlt =>
        rw [hs.length_buffers] at hlt
        exact ⟨hlt, trivial, trivial⟩
      · trivial
  | close slot => exact legal_elim fun h => legal_elim fun h => ⟨trivial, trivial⟩
  | put slot index data =>
    exact legal_elim fun h => legal_putActions (fun v hv => hs.window hv) index data
  | append slot data =>
    exact legal_elim fun h => legal_appendActions (fun v hv => hs.window hv) data
  | hold slot name => exact legal_elim fun h => ⟨fun v hv => hs.window hv, trivial⟩
  | putHeld name index data =>
    simp only [Step.actions]
    cases hw : s.holds.get? name with
    | none => trivial
    | some w =>
      refine legal_putActions (fun v hv => hs.hold name v ?_) index data
      rw [hw, show w = some v from hv]
  | scope body => exact Scope.legal hs body
  | get slot => trivial
  | align slot => trivial
  | length slot => trivial
  | closed slot => trivial
  | hasAddress slot => trivial
  | held name => trivial

/-- Whatever the steps, what they do is legal. -/
theorem trace_legal (hs : Sound a s l) (steps : List Step) : LegalAll a l (trace a s steps) := by
  induction steps generalizing s l with
  | nil => trivial
  | cons step rest ih =>
    rw [trace, legalAll_append]
    refine ⟨step.legal hs, ih ?_⟩
    rw [Step.run_fst]
    exact hs.replay (step.legal hs)

end Legality

/-! ## moments of a run -/

/-- The store after the first `n` actions of a run from nothing. -/
def moment (a : Allocator) (steps : List Step) (n : Nat) : Store :=
  replay a .empty ((trace a .empty steps).take n)

/-- What was asked for in the first `n` actions of a run from nothing. -/
def ledgerAt (a : Allocator) (steps : List Step) (n : Nat) : Ledger :=
  Ledger.empty.afterAll ((trace a .empty steps).take n)

/-- Between two steps a run is at a moment, and the last one is the end of the run. -/
theorem moment_of_append (a : Allocator) (xs ys : List Step) :
    moment a (xs ++ ys) (trace a .empty xs).length = (runSteps a .empty xs).1 := by
  rw [moment, trace_append, List.take_left', ← runSteps_eq_replay]
  rfl

/-- A later moment is reached by more actions. -/
theorem exists_later (a : Allocator) (steps : List Step) {n m : Nat} (h : n ≤ m) :
    ∃ xs, moment a steps m = replay a (moment a steps n) xs ∧
      ledgerAt a steps m = (ledgerAt a steps n).afterAll xs := by
  refine ⟨((trace a .empty steps).take m).drop n, ?_⟩
  have hsplit : (trace a .empty steps).take n ++ ((trace a .empty steps).take m).drop n =
      (trace a .empty steps).take m := by
    have := List.take_append_drop n ((trace a .empty steps).take m)
    rwa [List.take_take, Nat.min_eq_left h] at this
  rw [moment, moment, ledgerAt, ledgerAt, ← replay_append, ← Ledger.afterAll_append, hsplit]
  exact ⟨rfl, rfl⟩

/-- **At every moment of every run the store is sound.** -/
theorem sound_moment (a : Allocator) (steps : List Step) (n : Nat) :
    Sound a (moment a steps n) (ledgerAt a steps n) := by
  have hall := trace_legal (sound_empty a) steps
  rw [← List.take_append_drop n (trace a .empty steps), legalAll_append] at hall
  exact (sound_empty a).replay hall.1

end Buffer

end ArgLine
