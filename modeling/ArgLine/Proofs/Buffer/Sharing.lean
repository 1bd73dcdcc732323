import ArgLine.Proofs.Buffer.Scoped

/-!
# ArgLine.Proofs.Buffer.Sharing

Slots that share a buffer, and buffers that share a window.

Sharing gives one buffer a second name.  Cloning makes a second buffer with the window
of the first: what is written through one is read through the other, but each is closed
by itself.

* `Step.does` says what the actions of a step can be.  A step names a slot only if it
  assigns it (`Step.assigned?`), so a slot that no step assigns keeps its buffer
  (`Kept.slots?`).  It closes a buffer that is there only if it is a `close` of a slot that
  holds it (`Unclosed.not_close_mem`): what scopes close they opened themselves.
* `slots_coherent` puts the two together, for two slots one of which was made from the other.
-/

namespace ArgLine

namespace Buffer

/-! ## slots -/

def bufferAt (s : Store) (slot : Bytes) : Option Buffer :=
  (s.slots.get? slot).bind fun h => h.bind s.buffer?

/-- What can be seen of the buffer of a slot that was set. -/
def viewAt (s : Store) (slot : Bytes) : Option View :=
  (s.slots.get? slot).map fun h => viewBuffer s.memory (h.bind s.buffer?)

section Slots

variable {s : Store} {slot : Bytes} {h : Handle} {b : Buffer}

theorem bufferAt_of_holds (hslot : s.slots.get? slot = some (some h)) :
    bufferAt s slot = s.buffer? h := by
  rw [bufferAt, hslot]
  rfl

/-- A buffer that a slot shows is that of a handle. -/
theorem exists_holds (hb : bufferAt s slot = some b) :
    ∃ h, s.slots.get? slot = some (some h) ∧ s.buffer? h = some b := by
  unfold bufferAt at hb
  obtain ⟨h, hslot, hb⟩ := Option.bind_eq_some_iff.1 hb
  obtain ⟨h, rfl, hb⟩ := Option.bind_eq_some_iff.1 hb
  exact ⟨h, hslot, hb⟩

/-- A slot shows what its buffer shows. -/
theorem viewAt_eq (hb : bufferAt s slot = some b) :
    viewAt s slot = some (viewBuffer s.memory (some b)) := by
  obtain ⟨h, hslot, hb⟩ := exists_holds hb
  simp [viewAt, hslot, hb]

end Slots

/-! ## what a step assigns and closes -/

/-- The slot that a step gives a buffer, or none.  A step that fails assigns nothing. -/
def Step.assigned? (s : Store) : Step → Option Bytes
  | .acquire slot size alignment =>
    if refusal? size alignment = none then some slot else none
  | .clear slot => some slot
  | .share slot source => (s.slots.get? source).map fun _ => slot
  | .clone slot source => (bufferAt s source).map fun _ => slot
  | _ => none

/-- Whether a step closes the buffer of a slot, by that name or by another. -/
def Step.closes (s : Store) (slot : Bytes) : Step → Bool
  | .close other => s.slots.get? other = s.slots.get? slot
  | _ => false

/-- Each step of a run is as `P` says where it is taken. -/
def Throughout (a : Allocator) (P : Store → Step → Prop) : Store → List Step → Prop
  | _, [] => True
  | s, step :: rest => P s step ∧ Throughout a P (step.run a s).1 rest

instance Throughout.decidable (a : Allocator) (P : Store → Step → Prop)
    [∀ s step, Decidable (P s step)] : ∀ s steps, Decidable (Throughout a P s steps)
  | _, [] => isTrue trivial
  | s, step :: rest =>
    have := Throughout.decidable a P (step.run a s).1 rest
    inferInstanceAs (Decidable (P s step ∧ Throughout a P (step.run a s).1 rest))

/-- No step of a run assigns the slot. -/
def Kept (a : Allocator) (slot : Bytes) : Store → List Step → Prop :=
  Throughout a fun s step => step.assigned? s ≠ some slot

/-- No step of a run closes the buffer of the slot, by whatever name. -/
def Unclosed (a : Allocator) (slot : Bytes) : Store → List Step → Prop :=
  Throughout a fun s step => step.closes s slot = false

instance (a : Allocator) (slot : Bytes) (s : Store) (steps : List Step) :
    Decidable (Kept a slot s steps) :=
  inferInstanceAs (Decidable (Throughout a _ s steps))

instance (a : Allocator) (slot : Bytes) (s : Store) (steps : List Step) :
    Decidable (Unclosed a slot s steps) :=
  inferInstanceAs (Decidable (Throughout a _ s steps))

/-- The store is met while `steps` run on from `s`: between two steps, or inside a scope. -/
def Met (a : Allocator) (s : Store) (steps : List Step) (t : Store) : Prop :=
  ∃ xs, xs <+: trace a s steps ∧ t = replay a s xs

/-! ## the actions of a step -/

/-- Whether an action leaves every slot and every buffer as it is. -/
def Action.plain : Action → Bool
  | .store .. | .keep .. => true
  | .acquire _ | .copy _ | .close _ | .name .. => false

/-- What the actions of a step can be: slots and buffers change in no other way. -/
inductive Step.Does (s : Store) (step : Step) : Action → Prop where
  | plain {x : Action} (h : x.plain = true) : Does s step x
  | acquire {r} : Does s step (.acquire r)
  | copy {k} : Does s step (.copy k)
  /-- It names the slot that it assigns. -/
  | name {slot k} (h : step.assigned? s = some slot) : Does s step (.name slot k)
  /-- It closes the buffer of a slot. -/
  | close {slot k} (h : step = .close slot) (hslot : s.slots.get? slot = some (some k)) :
      Does s step (.close k)
  /-- It closes a buffer that it made itself. -/
  | closeOwn {k} (h : s.buffers.length ≤ k) : Does s step (.close k)

section Actions

variable {a : Allocator} {s : Store} {x : Action}

/-- A put stores bytes, and neither closes nor names anything. -/
theorem plain_of_mem_putActions {w : Option Slice} {index : Int64} {data : Bytes}
    (h : x ∈ putActions w index data) : x.plain = true := by
  cases w with
  | none => simp [putActions] at h
  | some v =>
    simp only [putActions, List.mem_singleton] at h
    subst h
    rfl

theorem plain_of_mem_appendActions {w : Option Slice} {data : Bytes}
    (h : x ∈ appendActions w data) : x.plain = true := by
  cases w with
  | none => simp [appendActions] at h
  | some v =>
    simp only [appendActions] at h
    split at h
    · split at h
      · simp only [List.mem_cons, List.not_mem_nil, or_false] at h
        rcases h with rfl | rfl <;> rfl
      · simp only [List.mem_singleton] at h
        subst h
        rfl
    · simp at h

theorem plain_of_mem_opening {o : Opening} {w : Option Slice} (h : x ∈ o.actions w) :
    x.plain = true := by
  rcases List.mem_append.1 h with hkeep | hput
  · cases ho : o.keepAs with
    | none => simp [ho, keepActions] at hkeep
    | some n =>
      simp only [ho, keepActions, List.mem_singleton] at hkeep
      subst hkeep
      rfl
  · exact plain_of_mem_putActions hput

/-- A scope acquires buffers, and closes none but those that it made. -/
theorem Scope.mem_actions {body : Scope} (h : x ∈ body.actions a s) :
    x.plain = true ∨ (∃ r, x = .acquire r) ∨ ∃ k ≥ s.buffers.length, x = .close k := by
  induction body generalizing s with
  | leaf o ending =>
    unfold Scope.actions at h
    split at h
    · simp at h
    · simp only [List.mem_cons, List.mem_append, List.not_mem_nil, or_false] at h
      rcases h with rfl | hopening | rfl
      · exact Or.inr (Or.inl ⟨_, rfl⟩)
      · exact Or.inl (plain_of_mem_opening hopening)
      · exact Or.inr (Or.inr ⟨_, Nat.le_refl _, rfl⟩)
  | nest o inner ih =>
    unfold Scope.actions at h
    split at h
    · simp at h
    · simp only [List.mem_cons, List.mem_append, List.not_mem_nil, or_false] at h
      rcases h with rfl | (hopening | hinner) | rfl
      · exact Or.inr (Or.inl ⟨_, rfl⟩)
      · exact Or.inl (plain_of_mem_opening hopening)
      · split at hinner
        · rcases ih hinner with hplain | hacquire | ⟨k, hk, rfl⟩
          · exact Or.inl hplain
          · exact Or.inr (Or.inl hacquire)
          · -- the inner scope starts with at least the buffers that are there now
            have hopened := length_buffers_replay a s [.acquire ⟨o.size, o.align⟩]
            have hbody := length_buffers_replay a (o.acquired a s) (o.actions (o.window a s))
            exact Or.inr (Or.inr ⟨k, hopened.trans (hbody.trans hk), rfl⟩)
        · simp at hinner
      · exact Or.inr (Or.inr ⟨_, Nat.le_refl _, rfl⟩)

theorem mem_elim {α β : Type} {o : Option α} {k : α → List β} {y : β} (h : y ∈ o.elim [] k) :
    ∃ z, o = some z ∧ y ∈ k z := by
  cases o with
  | none => simp at h
  | some z => exact ⟨z, rfl, h⟩

theorem does_clone {slot source : Bytes} {k : Option Handle} (hk : s.slots.get? source = some k)
    (h : x ∈ copyActions s slot k) : (Step.clone slot source).Does s x := by
  cases k with
  | none => simp [copyActions] at h
  | some k =>
    simp only [copyActions] at h
    split at h
    · next hlt =>
      simp only [List.mem_cons, List.not_mem_nil, or_false] at h
      rcases h with rfl | rfl
      · exact .copy
      · have hb : bufferAt s source = some s.buffers[k] := by
          rw [bufferAt_of_holds hk]
          exact List.getElem?_eq_getElem hlt
        exact .name (by simp [Step.assigned?, hb])
    · simp at h

/-- **What a step does to slots and buffers.** -/
theorem Step.does {step : Step} (h : x ∈ step.actions a s) : step.Does s x := by
  cases step with
  | acquire slot size align =>
    simp only [Step.actions] at h
    split at h
    · simp at h
    · next hr =>
      simp only [List.mem_cons, List.not_mem_nil, or_false] at h
      rcases h with rfl | rfl
      · exact .acquire
      · exact .name (by simp [Step.assigned?, hr])
  | clear slot =>
    obtain rfl := List.mem_singleton.1 h
    exact .name rfl
  | share slot source =>
    obtain ⟨k, hk, hx⟩ := mem_elim h
    obtain rfl := List.mem_singleton.1 hx
    exact .name (by simp [Step.assigned?, hk])
  | clone slot source =>
    obtain ⟨k, hk, hx⟩ := mem_elim h
    exact does_clone hk hx
  | close slot =>
    obtain ⟨k, hk, hx⟩ := mem_elim h
    obtain ⟨k, rfl, hx⟩ := mem_elim hx
    obtain rfl := List.mem_singleton.1 hx
    exact .close rfl hk
  | put slot index data =>
    obtain ⟨k, -, hx⟩ := mem_elim h
    exact .plain (plain_of_mem_putActions hx)
  | append slot data =>
    obtain ⟨k, -, hx⟩ := mem_elim h
    exact .plain (plain_of_mem_appendActions hx)
  | hold slot name =>
    obtain ⟨k, -, hx⟩ := mem_elim h
    obtain rfl := List.mem_singleton.1 hx
    exact .plain rfl
  | putHeld name index data =>
    obtain ⟨w, -, hx⟩ := mem_elim h
    exact .plain (plain_of_mem_putActions hx)
  | scope body =>
    rcases Scope.mem_actions h with hplain | ⟨r, rfl⟩ | ⟨k, hk, rfl⟩
    · exact .plain hplain
    · exact .acquire
    · exact .closeOwn hk
  | _ => simp [Step.actions] at h

end Actions

/-! ## what stays -/

section Stays

variable {a : Allocator} {s : Store} {slot : Bytes}

/-- An action that does not name the slot leaves it alone. -/
theorem slots?_apply {x : Action} (hx : ∀ k, x ≠ .name slot k) :
    (x.apply a s).slots.get? slot = s.slots.get? slot := by
  cases x with
  | acquire r =>
    by_cases hr : r.Granted
    · rw [apply_acquire hr]
    · obtain ⟨e, he⟩ := Option.ne_none_iff_exists'.1 hr
      rw [Action.apply, store_acquire_of_refusal he]
  | copy k =>
    rw [Action.apply]
    split <;> rfl
  | name slot' k =>
    have hne : slot ≠ slot' := by
      rintro rfl
      exact hx k rfl
    exact Bindings.get?_set_of_ne _ _ hne
  | close k => rfl
  | store block place data => rfl
  | keep n w => rfl

/-- A slot stays as it is if nothing names it. -/
theorem slots?_replay {xs : List Action} (hxs : ∀ k, Action.name slot k ∉ xs) :
    (replay a s xs).slots.get? slot = s.slots.get? slot := by
  induction xs generalizing s with
  | nil => rfl
  | cons x xs ih =>
    rw [replay_cons, ih fun k hk => hxs k (List.mem_cons_of_mem _ hk)]
    exact slots?_apply fun k hx => hxs k (hx ▸ List.mem_cons_self)

/-- A buffer stays as it is if nothing closes it. -/
theorem buffer?_replay {h : Handle} {b : Buffer} (hb : s.buffer? h = some b) {xs : List Action}
    (hxs : Action.close h ∉ xs) : (replay a s xs).buffer? h = some b := by
  induction xs generalizing s with
  | nil => exact hb
  | cons x xs ih =>
    have hx : x ≠ .close h := fun he => hxs (he ▸ List.mem_cons_self)
    exact ih (buffer?_apply a hb hx) fun hmem => hxs (List.mem_cons_of_mem _ hmem)

/-- A slot that no step assigns is not named. -/
theorem Kept.not_name_mem {steps : List Step} (h : Kept a slot s steps) (k : Option Handle) :
    Action.name slot k ∉ trace a s steps := by
  induction steps generalizing s with
  | nil => simp [trace]
  | cons step rest ih =>
    intro hmem
    rcases List.mem_append.1 hmem with hstep | hrest
    · cases Step.does hstep with
      | plain hplain => simp [Action.plain] at hplain
      | name hassigned => exact h.1 hassigned
    · exact ih h.2 hrest

/-- A slot that no step assigns holds what it held. -/
theorem Kept.slots? {steps : List Step} {t : Store} (h : Kept a slot s steps)
    (ht : Met a s steps t) : t.slots.get? slot = s.slots.get? slot := by
  obtain ⟨xs, hxs, rfl⟩ := ht
  exact slots?_replay fun k hk => h.not_name_mem k (hxs.subset hk)

/-- A buffer that was there is there, or it was closed. -/
theorem Met.buffer?_cases {steps : List Step} {t : Store} {h : Handle} {b : Buffer}
    (ht : Met a s steps t) (hb : s.buffer? h = some b) :
    t.buffer? h = some b ∨ t.buffer? h = some b.close := by
  obtain ⟨xs, -, rfl⟩ := ht
  exact replay_buffer? a hb xs

/-- A buffer that is closed by none of its names is not closed. -/
theorem Unclosed.not_close_mem {steps : List Step} {h : Handle} (hclosed : Unclosed a slot s steps)
    (hkept : Kept a slot s steps) (hslot : s.slots.get? slot = some (some h))
    (hlt : h < s.buffers.length) : Action.close h ∉ trace a s steps := by
  induction steps generalizing s with
  | nil => simp [trace]
  | cons step rest ih =>
    intro hmem
    rcases List.mem_append.1 hmem with hstep | hrest
    · cases Step.does hstep with
      | plain hplain => simp [Action.plain] at hplain
      | close hclose hother =>
        subst hclose
        have := hclosed.1
        simp [Step.closes, hother, hslot] at this
      | closeOwn hle => exact absurd hlt (Nat.not_lt.2 hle)
    · have hnames : ∀ k, Action.name slot k ∉ step.actions a s := by
        intro k hk
        exact hkept.not_name_mem k (List.mem_append_left _ hk)
      refine ih hclosed.2 hkept.2 ?_ ?_ hrest
      · rw [Step.run_fst, slots?_replay hnames, hslot]
      · rw [Step.run_fst]
        exact Nat.lt_of_lt_of_le hlt (length_buffers_replay a s _)

end Stays

/-! ## two slots -/

/-- Closing the buffer of the slot `x`, by whatever name, closes it and leaves the slot `y` as it
is: its buffer, with the address, and what can be seen of it. -/
def Spares (a : Allocator) (s : Store) (x y : Bytes) : Prop :=
  ∀ z, s.slots.get? z = s.slots.get? x → ∀ t, ((Step.close z).run a s).1 = t →
    t.memory = s.memory ∧ bufferAt t y = bufferAt s y ∧ viewAt t y = viewAt s y ∧
      ∃ v, viewAt t x = some v ∧ v.closed = true

/-- Two slots, one of which was made by cloning the buffer `b` of the other. -/
structure Cloned (a : Allocator) (s : Store) (b : Buffer) (x y : Bytes) : Prop where
  /-- Each holds the buffer that was cloned, or that buffer closed. -/
  source : bufferAt s x = some b ∨ bufferAt s x = some b.close
  copy : bufferAt s y = some b ∨ bufferAt s y = some b.close
  /-- While both are open, they look the same. -/
  view_eq : ∀ u v, viewAt s x = some u → viewAt s y = some v →
    u.closed = false → v.closed = false → u = v
  /-- Either is closed without the other. -/
  spares : x ≠ y → Spares a s x y ∧ Spares a s y x

section Pairs

variable {a : Allocator} {s : Store} {x y : Bytes}

/-- Closing a slot closes the handle that it holds. -/
theorem run_close {z : Bytes} {h : Handle} (hz : s.slots.get? z = some (some h)) :
    ((Step.close z).run a s).1 = s.close h := by
  rw [Step.run_fst, Step.actions, hz]
  rfl

/-- Slots with two handles do not close each other. -/
theorem spares_of_ne {i j : Handle} {b : Buffer} (hx : s.slots.get? x = some (some i))
    (hb : s.buffer? i = some b) (hy : s.slots.get? y = some (some j)) (hne : i ≠ j) :
    Spares a s x y := by
  rintro z hz t rfl
  rw [run_close (hz.trans hx)]
  have hkept : (s.close i).buffer? j = s.buffer? j := by
    rw [buffer?_close]
    simp [hne]
  have hclosed : bufferAt (s.close i) x = some b.close := by
    rw [bufferAt_of_holds (show (s.close i).slots.get? x = some (some i) from hx), buffer?_close,
      hb]
    simp
  have hbuffer : bufferAt (s.close i) y = bufferAt s y := by
    rw [bufferAt_of_holds hy, bufferAt_of_holds (show (s.close i).slots.get? y = _ from hy), hkept]
  refine ⟨rfl, hbuffer, ?_, _, viewAt_eq hclosed, rfl⟩
  have hslots : (s.close i).slots = s.slots := rfl
  simp only [viewAt, hslots, hy, Option.map_some, Option.bind_some, hkept]
  rfl

/-- Two handles with one buffer, each closed or not, are clones. -/
theorem cloned_of_holds {i j : Handle} {b : Buffer} (hx : s.slots.get? x = some (some i))
    (hy : s.slots.get? y = some (some j)) (hne : x ≠ y → i ≠ j)
    (hi : s.buffer? i = some b ∨ s.buffer? i = some b.close)
    (hj : s.buffer? j = some b ∨ s.buffer? j = some b.close) : Cloned a s b x y := by
  have hxi := bufferAt_of_holds hx
  have hyj := bufferAt_of_holds hy
  refine ⟨hxi ▸ hi, hyj ▸ hj, ?_, fun hxy => ?_⟩
  · intro u v hu hv hopenu hopenv
    -- what is open is the buffer that was cloned, and not that buffer closed
    have hopen : ∀ {slot : Bytes} {w : View}, bufferAt s slot = some b ∨
        bufferAt s slot = some b.close → viewAt s slot = some w → w.closed = false →
        w = viewBuffer s.memory (some b) := by
      intro slot w hb hw hclosed
      rcases hb with hb | hb
      · exact Option.some.inj (hw.symm.trans (viewAt_eq hb))
      · have hview := Option.some.inj (hw.symm.trans (viewAt_eq hb))
        rw [hview] at hclosed
        contradiction
    rw [hopen (hxi ▸ hi) hu hopenu, hopen (hyj ▸ hj) hv hopenv]
  · have hexists : ∀ k : Handle, s.buffer? k = some b ∨ s.buffer? k = some b.close →
        ∃ c, s.buffer? k = some c := fun k hk => hk.elim (⟨_, ·⟩) (⟨_, ·⟩)
    obtain ⟨ci, hci⟩ := hexists i hi
    obtain ⟨cj, hcj⟩ := hexists j hj
    exact ⟨spares_of_ne hx hci hy (hne hxy), spares_of_ne hy hcj hx (hne hxy).symm⟩

/-- A shared slot holds the handle itself. -/
theorem run_share {k : Option Handle} (hx : s.slots.get? x = some k) :
    ((Step.share y x).run a s).1 = s.setSlot y k := by
  rw [Step.run_fst, Step.actions, hx]
  rfl

/-- A cloned slot holds a new handle with the same buffer. -/
theorem run_clone {i : Handle} {b : Buffer} (hx : s.slots.get? x = some (some i))
    (hb : s.buffer? i = some b) :
    ((Step.clone y x).run a s).1 = (s.add b).1.setSlot y (some s.buffers.length) := by
  rw [Step.run, withSlot, hx]
  simp only [Option.bind_some, hb]
  rfl

/-- Two slots hold the same after one was made to share with the other. -/
theorem slots?_setSlot_of_eq {k : Option Handle} (hx : s.slots.get? x = some k) :
    (s.setSlot y k).slots.get? x = some k := by
  by_cases hxy : x = y
  · subst hxy
    exact Bindings.get?_set_self ..
  · exact (Bindings.get?_set_of_ne _ _ hxy).trans hx

/-- After a clone two slots hold buffers of their own that are equal. -/
theorem exists_holds_clone {b : Buffer} (hb : bufferAt s x = some b) :
    ∃ i j, ((Step.clone y x).run a s).1.slots.get? x = some (some i) ∧
      ((Step.clone y x).run a s).1.slots.get? y = some (some j) ∧ (x ≠ y → i ≠ j) ∧
      ((Step.clone y x).run a s).1.buffer? i = some b ∧
      ((Step.clone y x).run a s).1.buffer? j = some b := by
  obtain ⟨i, hx, hi⟩ := exists_holds hb
  have hlt : i < s.buffers.length := (List.getElem?_eq_some_iff.1 hi).1
  have hnew : ((s.add b).1.setSlot y (some s.buffers.length)).buffer? s.buffers.length = some b :=
    List.getElem?_concat_length
  have hy : ((s.add b).1.setSlot y (some s.buffers.length)).slots.get? y =
      some (some s.buffers.length) := Bindings.get?_set_self ..
  rw [run_clone hx hi]
  by_cases hxy : x = y
  · subst hxy
    exact ⟨_, _, hy, hy, fun h => absurd rfl h, hnew, hnew⟩
  · refine ⟨i, _, ?_, hy, fun _ => Nat.ne_of_lt hlt, ?_, hnew⟩
    · exact (Bindings.get?_set_of_ne _ _ hxy).trans hx
    · exact (List.getElem?_append_left hlt).trans hi

/-- A slot that is neither assigned nor closed holds the same buffer, with the same address. -/
theorem Unclosed.bufferAt_eq {steps : List Step} {t : Store} {h : Handle} {b : Buffer}
    (hclosed : Unclosed a x s steps) (hkept : Kept a x s steps)
    (hx : s.slots.get? x = some (some h)) (hb : s.buffer? h = some b) (ht : Met a s steps t) :
    bufferAt t x = some b := by
  rw [bufferAt_of_holds ((hkept.slots? ht).trans hx)]
  obtain ⟨xs, hxs, rfl⟩ := ht
  have hlt : h < s.buffers.length := (List.getElem?_eq_some_iff.1 hb).1
  exact buffer?_replay hb fun hmem => hclosed.not_close_mem hkept hx hlt (hxs.subset hmem)

end Pairs

/-- Between two steps of a run its store is met. -/
theorem met_runSteps (a : Allocator) (s : Store) (xs ys : List Step) :
    Met a s (xs ++ ys) (runSteps a s xs).1 := by
  refine ⟨trace a s xs, ?_, runSteps_eq_replay a s xs⟩
  rw [trace_append]
  exact List.prefix_append ..

/-- One step more is done where the steps before it lead. -/
theorem runSteps_concat (a : Allocator) (s : Store) (xs : List Step) (step : Step) :
    (runSteps a s (xs ++ [step])).1 = (step.run a (runSteps a s xs).1).1 := by
  rw [runSteps_append]
  rfl

/-- **Shared and cloned buffers stay coherent.**  Let the slot `y` be made from `x`, and let no step
after that assign either.  If `y` shares the buffer of `x`, the two look the same at every later
point.  If it holds a clone, they look the same while both are open, each stays open until it
is closed by one of its own names, and closing one leaves the other as it is; the clone of a
closed buffer is closed. -/
theorem slots_coherent (a : Allocator) (before after : List Step) (x y : Bytes) :
    (∀ s us vs, after = us ++ vs → Met a s after (runSteps a s us).1) ∧
    (∀ k s, (runSteps a .empty before).1.slots.get? x = some k →
      (runSteps a .empty (before ++ [.share y x])).1 = s →
      Kept a x s after → Kept a y s after →
      ∀ t, Met a s after t → ∃ v, viewAt t x = some v ∧ viewAt t y = some v) ∧
    ∀ b s, bufferAt (runSteps a .empty before).1 x = some b →
      (runSteps a .empty (before ++ [.clone y x])).1 = s →
      Kept a x s after → Kept a y s after →
      bufferAt s x = some b ∧ bufferAt s y = some b ∧
      ∀ t, Met a s after t → Cloned a t b x y ∧
        (Unclosed a x s after → bufferAt t x = some b) ∧
        (Unclosed a y s after → bufferAt t y = some b) ∧
        (b.isClosed = true → ∃ v, viewAt t y = some v ∧ v.closed = true) := by
  refine ⟨?_, ?_, ?_⟩
  · rintro s us vs rfl
    exact met_runSteps a s us vs
  · rintro k s hx rfl hkeptx hkepty t ht
    rw [runSteps_concat, run_share hx] at hkeptx hkepty ht
    have htx := (hkeptx.slots? ht).trans (slots?_setSlot_of_eq hx)
    have hty := (hkepty.slots? ht).trans (Bindings.get?_set_self ..)
    refine ⟨viewBuffer t.memory (k.bind t.buffer?), ?_, ?_⟩
    · rw [viewAt, htx, Option.map_some]
    · rw [viewAt, hty, Option.map_some]
  · rintro b s hb rfl hkeptx hkepty
    rw [runSteps_concat] at hkeptx hkepty ⊢
    obtain ⟨i, j, hx, hy, hne, hi, hj⟩ := exists_holds_clone (a := a) (y := y) hb
    refine ⟨(bufferAt_of_holds hx).trans hi, (bufferAt_of_holds hy).trans hj, fun t ht => ?_⟩
    have htx := (hkeptx.slots? ht).trans hx
    have hty := (hkepty.slots? ht).trans hy
    refine ⟨cloned_of_holds htx hty hne (ht.buffer?_cases hi) (ht.buffer?_cases hj),
      fun h => h.bufferAt_eq hkeptx hx hi ht, fun h => h.bufferAt_eq hkepty hy hj ht, ?_⟩
    intro hclosed
    rcases ht.buffer?_cases hj with hsame | hclose
    · exact ⟨_, viewAt_eq ((bufferAt_of_holds hty).trans hsame), hclosed⟩
    · exact ⟨_, viewAt_eq ((bufferAt_of_holds hty).trans hclose), rfl⟩

/-- What happens to a buffer of two bytes, its clone and a second name of that: bytes are written
through a slice kept from the one, the other is closed by its second name, and a refused
acquisition leaves its slot alone. -/
def sharedRun : List Step :=
  [.share [99] [98], .hold [97] [107], .putHeld [107] 0 [7, 8], .close [99],
    .acquire [97] (-1) 8, .scope (.leaf ⟨1, 1, none, 0, [3]⟩ .finish)]

/-- A slot that is not closed, beside a clone that is. -/
theorem slots_coherent_sharedRun :
    ∃ b s s', bufferAt (runSteps .spread .empty [.acquire [97] 2 16]).1 [97] = some b ∧
      (runSteps .spread .empty [.acquire [97] 2 16, .clone [98] [97]]).1 = s ∧
      Kept .spread [97] s sharedRun ∧ Kept .spread [98] s sharedRun ∧
      Unclosed .spread [97] s sharedRun ∧ ¬ Unclosed .spread [98] s sharedRun ∧
      (∀ t, Met .spread s sharedRun t →
        Cloned .spread t b [97] [98] ∧ bufferAt t [97] = some b) ∧
      (runSteps .spread .empty [.acquire [97] 2 16, .share [98] [97]]).1 = s' ∧
      Kept .spread [97] s' sharedRun ∧ Kept .spread [98] s' sharedRun ∧
      ∀ t, Met .spread s' sharedRun t → ∃ v, viewAt t [97] = some v ∧ viewAt t [98] = some v := by
  have hb : bufferAt (runSteps .spread .empty [.acquire [97] 2 16]).1 [97] =
      some ⟨some ⟨0, 0, 18, 18⟩, some ⟨0, 8, 2, 2⟩, 0x800000000010, 16⟩ := by decide +kernel
  have hk : (runSteps .spread .empty [.acquire [97] 2 16]).1.slots.get? [97] = some (some 0) := by
    decide +kernel
  have hx : Kept .spread [97]
      (runSteps .spread .empty [.acquire [97] 2 16, .clone [98] [97]]).1 sharedRun := by
    decide +kernel
  have hy : Kept .spread [98]
      (runSteps .spread .empty [.acquire [97] 2 16, .clone [98] [97]]).1 sharedRun := by
    decide +kernel
  have hopen : Unclosed .spread [97]
      (runSteps .spread .empty [.acquire [97] 2 16, .clone [98] [97]]).1 sharedRun := by
    decide +kernel
  have hx' : Kept .spread [97]
      (runSteps .spread .empty [.acquire [97] 2 16, .share [98] [97]]).1 sharedRun := by
    decide +kernel
  have hy' : Kept .spread [98]
      (runSteps .spread .empty [.acquire [97] 2 16, .share [98] [97]]).1 sharedRun := by
    decide +kernel
  have hcoherent := slots_coherent .spread [.acquire [97] 2 16] sharedRun [97] [98]
  refine ⟨_, _, _, hb, rfl, hx, hy, hopen, by decide +kernel, fun t ht => ?_, rfl, hx', hy', ?_⟩
  · have hpair := (hcoherent.2.2 _ _ hb rfl hx hy).2.2 t ht
    exact ⟨hpair.1, hpair.2.1 hopen⟩
  · exact hcoherent.2.1 _ _ hk rfl hx' hy'

end Buffer

end ArgLine
