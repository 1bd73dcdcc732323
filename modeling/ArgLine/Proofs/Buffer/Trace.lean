import ArgLine.Buffer.Script
import ArgLine.Proofs.Buffer.Request

/-!
# ArgLine.Proofs.Buffer.Trace

A run of steps as a list of actions.

However many kinds of steps there are, and however deep scopes are nested, a run
does only six things to a store: it acquires a buffer, copies one, closes one,
stores bytes, names a buffer, or keeps a slice.  `Step.actions` gives the actions of
a step, and `runSteps_eq_replay` says that carrying them out leads where the run
leads.  What holds of every action therefore holds of every run, and also at
every point in the middle of a scope.
-/

namespace ArgLine

namespace Buffer

/-- One change of a store. -/
inductive Action where
  /-- Acquires a buffer by a request that is granted. -/
  | acquire (r : Request)
  /-- Makes a second buffer like the one of a handle. -/
  | copy (h : Handle)
  | close (h : Handle)
  /-- Stores bytes in an allocation. -/
  | store (block place : Nat) (data : Bytes)
  /-- Names a buffer, or none. -/
  | name (slot : Bytes) (h : Option Handle)
  /-- Keeps a slice. -/
  | keep (name : Bytes) (w : Option Slice)
  deriving DecidableEq, Repr

def Action.apply (a : Allocator) (s : Store) : Action → Store
  | .acquire r =>
    match s.acquire a r.size r.align with
    | .ok (next, _) => next
    | .error _ => s
  | .copy h =>
    match s.buffer? h with
    | some b => (s.add b).1
    | none => s
  | .close h => s.close h
  | .store block place data => { s with memory := s.memory.storeAll block place data }
  | .name slot h => s.setSlot slot h
  | .keep n w => s.keep n w

def replay (a : Allocator) (s : Store) (actions : List Action) : Store :=
  actions.foldl (Action.apply a) s

@[simp] theorem replay_nil (a : Allocator) (s : Store) : replay a s [] = s := rfl

@[simp] theorem replay_cons (a : Allocator) (s : Store) (x : Action) (xs : List Action) :
    replay a s (x :: xs) = replay a (x.apply a s) xs := rfl

@[simp] theorem replay_append (a : Allocator) (s : Store) (xs ys : List Action) :
    replay a s (xs ++ ys) = replay a (replay a s xs) ys := List.foldl_append

/-! ## the actions of a step -/

/-- The actions of putting bytes through a slice: those in range are stored at once. -/
def putActions (w : Option Slice) (index : Int64) (data : Bytes) : List Action :=
  match w with
  | some v => [.store v.block (v.start + index.toInt.toNat) (data.take (Slice.room w index))]
  | none => []

/-- The actions of appending to a slice and marking the result: none if the result is a copy. -/
def appendActions (w : Option Slice) (data : Bytes) : List Action :=
  match w with
  | some v =>
    if v.length + data.length ≤ v.capacity then
      .store v.block (v.start + v.length) data ::
        if 0 < v.length + data.length then [.store v.block v.start [mark]] else []
    else []
  | none => []

/-- The actions of keeping a slice if a name is given. -/
def keepActions (name : Option Bytes) (w : Option Slice) : List Action :=
  match name with
  | some n => [.keep n w]
  | none => []

/-- The actions of copying the buffer of a handle, if there is one. -/
def copyActions (s : Store) (slot : Bytes) (h : Option Handle) : List Action :=
  match h with
  | some h =>
    if h < s.buffers.length then [.copy h, .name slot (some s.buffers.length)] else []
  | none => []

/-- The actions of a body up to where it ends or opens another scope. -/
def Opening.actions (o : Opening) (w : Option Slice) : List Action :=
  keepActions o.keepAs w ++ putActions w o.index o.data

def Opening.acquired (a : Allocator) (s : Store) (o : Opening) : Store :=
  Action.apply a s (.acquire ⟨o.size, o.align⟩)

def Opening.window (a : Allocator) (s : Store) (o : Opening) : Option Slice :=
  (o.acquired a s).window (some s.buffers.length)

def Scope.actions (a : Allocator) (s : Store) : Scope → List Action
  | .leaf o _ =>
    match refusal? o.size o.align with
    | some _ => []
    | none =>
      .acquire ⟨o.size, o.align⟩ :: (o.actions (o.window a s) ++ [.close s.buffers.length])
  | .nest o inner =>
    match refusal? o.size o.align with
    | some _ => []
    | none =>
      .acquire ⟨o.size, o.align⟩ :: (o.actions (o.window a s) ++
        -- the inner scope is opened only if every byte was put
        (if o.data.length ≤ Slice.room (o.window a s) o.index then
          inner.actions a (replay a (o.acquired a s) (o.actions (o.window a s)))
        else []) ++ [.close s.buffers.length])

def Step.actions (a : Allocator) (s : Store) : Step → List Action
  | .acquire slot size alignment =>
    match refusal? size alignment with
    | some _ => []
    | none => [.acquire ⟨size, alignment⟩, .name slot (some s.buffers.length)]
  | .clear slot => [.name slot none]
  | .share slot source => (s.slots.get? source).elim [] fun h => [.name slot h]
  | .clone slot source => (s.slots.get? source).elim [] (copyActions s slot)
  | .close slot => (s.slots.get? slot).elim [] fun h => h.elim [] fun h => [.close h]
  | .put slot index data =>
    (s.slots.get? slot).elim [] fun h => putActions (s.window h) index data
  | .append slot data => (s.slots.get? slot).elim [] fun h => appendActions (s.window h) data
  | .hold slot name => (s.slots.get? slot).elim [] fun h => [.keep name (s.window h)]
  | .putHeld name index data => (s.holds.get? name).elim [] fun w => putActions w index data
  | .scope body => body.actions a s
  | .get _ | .align _ | .length _ | .closed _ | .hasAddress _ | .held _ => []

/-- The actions of a run. -/
def trace (a : Allocator) (s : Store) : List Step → List Action
  | [] => []
  | step :: rest => step.actions a s ++ trace a (step.run a s).1 rest

/-! ## carrying out the actions is running the step -/

/-- Acquiring a granted request adds one allocation and the buffer cut out of it. -/
theorem apply_acquire {r : Request} (hr : r.Granted) (a : Allocator) (s : Store) :
    (Action.acquire r).apply a s =
      { s with
        memory := ⟨s.memory.blocks ++
          [r.block (a s.memory.blocks.length r.total)]⟩
        buffers := s.buffers ++
          [r.buffer s.memory.blocks.length (a s.memory.blocks.length r.total)] } := by
  rw [Action.apply, Store.acquire, hr.acquire_eq a s.memory]
  rfl

/-- A granted request is the action of acquiring. -/
theorem store_acquire_eq {r : Request} (hr : r.Granted) (a : Allocator) (s : Store) :
    s.acquire a r.size r.align = .ok ((Action.acquire r).apply a s, s.buffers.length) := by
  rw [apply_acquire hr, Store.acquire, hr.acquire_eq a s.memory]
  rfl

theorem store_acquire_of_refusal {size align : Int64} {e : BufferError}
    (h : refusal? size align = some e) (a : Allocator) (s : Store) :
    s.acquire a size align = .error (.failed e) := by
  rw [Store.acquire, Request.acquire_of_refusal h a s.memory]

/-- A put is the storing of the bytes that have room. -/
theorem replay_putActions (a : Allocator) (s : Store) (w : Option Slice) (index : Int64)
    (data : Bytes) :
    replay a s (putActions w index data) = { s with memory := (s.memory.put w index data).1 } := by
  cases w with
  | none => rfl
  | some v => rfl

/-- An append is the storing of its bytes and of the mark, if there is room. -/
theorem replay_appendActions (a : Allocator) (s : Store) (w : Option Slice) (data : Bytes) :
    replay a s (appendActions w data) =
      { s with
        memory := (s.memory.append w data).1.stamp mark (s.memory.append w data).2 } := by
  cases w with
  | none =>
    unfold Memory.append
    split <;> rfl
  | some v =>
    unfold appendActions Memory.append
    by_cases h : v.length + data.length ≤ v.capacity
    · have h' : Slice.lengthOf (some v) + data.length ≤ Slice.capacityOf (some v) := h
      simp only [if_pos h, if_pos h']
      by_cases hpos : 0 < v.length + data.length
      · simp only [if_pos hpos, Memory.stamp]
        rfl
      · simp only [if_neg hpos, Memory.stamp]
        rfl
    · have h' : ¬ Slice.lengthOf (some v) + data.length ≤ Slice.capacityOf (some v) := h
      simp only [if_neg h, if_neg h']
      rfl

theorem replay_keepActions (a : Allocator) (s : Store) (name : Option Bytes) (w : Option Slice) :
    replay a s (keepActions name w) = keepIf s name w := by
  cases name with
  | none => rfl
  | some n => rfl

/-- A put succeeds exactly if every byte finds room. -/
theorem put_snd_eq_none {m : Memory} {w : Option Slice} {index : Int64} {data : Bytes} :
    (m.put w index data).2 = none ↔ data.length ≤ Slice.room w index := by
  unfold Memory.put
  simp only [List.length_take]
  split
  · simp
    omega
  · simp
    omega

/-- A body does its opening's actions, and the rest only if every byte was put. -/
theorem Opening.body_fst (a : Allocator) (o : Opening)
    (rest : Store → SliceView → Option UInt64 → SliceView → Store × ScopeReport)
    (s : Store) (w : Option Slice) :
    ∃ first residue second, (o.body rest s w).1 =
      if o.data.length ≤ Slice.room w o.index then
        (rest (replay a s (o.actions w)) first residue second).1
      else replay a s (o.actions w) := by
  have hreplay : replay a s (o.actions w) =
      { keepIf s o.keepAs w with
        memory := ((keepIf s o.keepAs w).memory.put w o.index o.data).1 } := by
    rw [Opening.actions, replay_append, replay_keepActions, replay_putActions]
  refine ⟨viewSlice s.memory w, residue? s.memory w o.align,
    viewSlice ((keepIf s o.keepAs w).memory.put w o.index o.data).1 w, ?_⟩
  rw [hreplay]
  unfold Opening.body
  cases hput : (keepIf s o.keepAs w).memory.put w o.index o.data with
  | mk m fault =>
    cases fault with
    | none =>
      have hroom := put_snd_eq_none.1 (congrArg Prod.snd hput)
      simp only [hput, if_pos hroom]
    | some fault =>
      have hroom : ¬ o.data.length ≤ Slice.room w o.index := by
        intro h
        have := put_snd_eq_none (m := (keepIf s o.keepAs w).memory).2 h
        rw [hput] at this
        contradiction
      simp only [hput, if_neg hroom]

/-- Carrying out the actions of a scope is running it. -/
theorem Scope.run_fst (a : Allocator) (s : Store) (body : Scope) :
    (body.run a s).1 = replay a s (body.actions a s) := by
  induction body generalizing s with
  | leaf o ending =>
    unfold Scope.run Scope.actions Store.withBuffer
    cases hr : refusal? o.size o.align with
    | some e => rw [store_acquire_of_refusal hr]; rfl
    | none =>
      rw [store_acquire_eq (r := ⟨o.size, o.align⟩) hr]
      obtain ⟨_, _, _, hbody⟩ := Opening.body_fst a o (fun s first residue second =>
        (s, .ended first residue (some second) ending.outcome)) (o.acquired a s) (o.window a s)
      rw [ite_self] at hbody
      simp only [replay_cons, replay_append, replay_nil]
      exact congrArg (Store.close · s.buffers.length) hbody
  | nest o inner ih =>
    unfold Scope.run Scope.actions Store.withBuffer
    cases hr : refusal? o.size o.align with
    | some e => rw [store_acquire_of_refusal hr]; rfl
    | none =>
      rw [store_acquire_eq (r := ⟨o.size, o.align⟩) hr]
      obtain ⟨_, _, _, hbody⟩ := Opening.body_fst a o (fun s first residue second =>
        ((inner.run a s).1, .nested first residue second (inner.run a s).2))
        (o.acquired a s) (o.window a s)
      have hinner : (inner.run a (replay a (o.acquired a s) (o.actions (o.window a s)))).1 =
          replay a (replay a (o.acquired a s) (o.actions (o.window a s)))
            (inner.actions a (replay a (o.acquired a s) (o.actions (o.window a s)))) := ih _
      simp only [hinner] at hbody
      simp only [replay_cons, replay_append, replay_nil]
      refine (congrArg (Store.close · s.buffers.length) hbody).trans ?_
      split <;> rfl

/-- What a step does with a slot that was set decides what it does. -/
theorem withSlot_fst {a : Allocator} {s : Store} {f : Option Handle → Store × Answer}
    {k : Option Handle → List Action} (h : ∀ x, (f x).1 = replay a s (k x)) (slot : Bytes) :
    (withSlot s slot f).1 = replay a s ((s.slots.get? slot).elim [] k) := by
  unfold withSlot
  cases s.slots.get? slot with
  | none => rfl
  | some x => exact h x

/-- An operation on a hold is some actions if it is for every window. -/
theorem withHold_fst {a : Allocator} {s : Store} {f : Option Slice → Store × Answer}
    {k : Option Slice → List Action} (h : ∀ w, (f w).1 = replay a s (k w)) (name : Bytes) :
    (withHold s name f).1 = replay a s ((s.holds.get? name).elim [] k) := by
  unfold withHold
  cases s.holds.get? name with
  | none => rfl
  | some w => exact h w

/-- What holds of a store holds after a step on a slot if it does whatever the slot holds. -/
theorem withSlot_preserves {P : Store → Prop} {s : Store} {f : Option Handle → Store × Answer}
    (hs : P s) (h : ∀ x, P (f x).1) (slot : Bytes) : P (withSlot s slot f).1 := by
  unfold withSlot
  cases s.slots.get? slot with
  | none => exact hs
  | some x => exact h x

/-- What an operation keeps for every window it keeps for a hold. -/
theorem withHold_preserves {P : Store → Prop} {s : Store} {f : Option Slice → Store × Answer}
    (hs : P s) (h : ∀ w, P (f w).1) (name : Bytes) : P (withHold s name f).1 := by
  unfold withHold
  cases s.holds.get? name with
  | none => exact hs
  | some w => exact h w

/-- A put through a window is the actions of a put, whatever is answered. -/
theorem putThrough_fst (a : Allocator) (s : Store) (w : Option Slice) (index : Int64)
    (data : Bytes) (view : Store → Answer) :
    (putThrough s w index data view).1 = replay a s (putActions w index data) := by
  rw [replay_putActions]
  unfold putThrough
  cases hput : s.memory.put w index data with
  | mk m fault => cases fault <;> rfl

/-- A clone is a copy and a name for it. -/
theorem clone_fst (a : Allocator) (s : Store) (slot : Bytes) (h : Option Handle) :
    (match h.bind s.buffer? with
      | some b =>
        let (next, copy) := s.add b
        answerBuffer (next.setSlot slot (some copy)) (some copy)
      | none => (s, .unknownSlot)).1 = replay a s (copyActions s slot h) := by
  cases h with
  | none => rfl
  | some h =>
    by_cases hlt : h < s.buffers.length
    · have hb : s.buffer? h = some s.buffers[h] := List.getElem?_eq_getElem hlt
      simp only [copyActions, if_pos hlt, Option.bind_some, hb, replay_cons, Action.apply]
      rfl
    · have hb : s.buffer? h = none := List.getElem?_eq_none (Nat.le_of_not_lt hlt)
      simp only [copyActions, if_neg hlt, Option.bind_some, hb]
      rfl

/-- Carrying out the actions of a step is running it. -/
theorem Step.run_fst (a : Allocator) (s : Store) (step : Step) :
    (step.run a s).1 = replay a s (step.actions a s) := by
  cases step with
  | acquire slot size align =>
    simp only [Step.run, Step.actions]
    cases hr : refusal? size align with
    | some e => rw [store_acquire_of_refusal hr]; rfl
    | none => rw [store_acquire_eq (r := ⟨size, align⟩) hr]; rfl
  | clear slot => rfl
  | share slot source => exact withSlot_fst (fun h => rfl) source
  | clone slot source => exact withSlot_fst (fun h => clone_fst a s slot h) source
  | get slot => exact withSlot_preserves (P := (· = s)) rfl (fun h => rfl) slot
  | close slot => exact withSlot_fst (fun h => by cases h <;> rfl) slot
  | align slot =>
    refine withSlot_preserves (P := (· = s)) rfl (fun h => ?_) slot
    cases h.bind s.buffer? <;> rfl
  | length slot => exact withSlot_preserves (P := (· = s)) rfl (fun h => rfl) slot
  | closed slot => exact withSlot_preserves (P := (· = s)) rfl (fun h => rfl) slot
  | hasAddress slot => exact withSlot_preserves (P := (· = s)) rfl (fun h => rfl) slot
  | put slot index data => exact withSlot_fst (fun h => putThrough_fst a s _ index data _) slot
  | append slot data => exact withSlot_fst (fun h => (replay_appendActions a s _ data).symm) slot
  | hold slot name => exact withSlot_fst (fun h => rfl) slot
  | held name => exact withHold_preserves (P := (· = s)) rfl (fun w => rfl) name
  | putHeld name index data =>
    exact withHold_fst (fun w => putThrough_fst a s w index data _) name
  | scope body => exact Scope.run_fst a s body

/-- **A run is its actions**: carrying them out leads where the run leads. -/
theorem runSteps_eq_replay (a : Allocator) (s : Store) (steps : List Step) :
    (runSteps a s steps).1 = replay a s (trace a s steps) := by
  induction steps generalizing s with
  | nil => rfl
  | cons step rest ih =>
    rw [trace, replay_append, ← Step.run_fst, ← ih]
    rfl

/-- The actions of a run in two parts are those of the one and of the other. -/
theorem trace_append (a : Allocator) (s : Store) (xs ys : List Step) :
    trace a s (xs ++ ys) = trace a s xs ++ trace a (runSteps a s xs).1 ys := by
  induction xs generalizing s with
  | nil => rfl
  | cons step rest ih =>
    rw [List.cons_append, trace, trace, ih, List.append_assoc]
    rfl

end Buffer

end ArgLine
