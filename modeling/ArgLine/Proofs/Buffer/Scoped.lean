import ArgLine.Proofs.Buffer.Confinement
import ArgLine.Proofs.Buffer.Shapes

/-!
# ArgLine.Proofs.Buffer.Scoped

Scoped acquisition, on every way out and at any depth.

* `withBuffer_of_error`: a refused scope is the refusal, whatever its body is.
* `withBuffer_of_lent`: any other scope is its body, run once on a fresh window
  (`Lent`), with its own buffer closed afterwards and nothing else touched (`Released`).
* `Callback.mem_openHandles_run`: whatever callbacks do and however deep they open
  scopes, a buffer that is open in the end was open before or was made without a scope.

A `Callback` is a body whose scopes can be seen.  It may read all of the store, do any
action, and go on after a scope as it likes, so an error or a fault of an inner scope
can be passed on or caught at each level.
-/

namespace ArgLine

namespace Buffer

/-! ## one scope -/

/-- The store `opened` is `s` with one more buffer, whose window `v` is lent to a body. -/
structure Lent (s opened : Store) (size : Int64) (h : Handle) (v : Slice) : Prop where
  window_eq : opened.window (some h) = some v
  length_eq : (v.length : Int) = size.toInt
  capacity_eq : (v.capacity : Int) = size.toInt
  zero : opened.memory.read v = List.replicate v.length 0
  /-- The allocation is a new one, and those that were there are as they were. -/
  blocks_eq : v.block = s.memory.blocks.length ∧
    ∃ k, opened.memory.blocks = s.memory.blocks ++ [k]
  /-- The buffer is a new one, and those that were there are as they were. -/
  buffers_eq : h = s.buffers.length ∧
    ∃ b, opened.buffers = s.buffers ++ [b] ∧ b.isClosed = false
  slots_eq : opened.slots = s.slots
  holds_eq : opened.holds = s.holds

/-- The store `final` is `after` with the buffer of a handle closed. -/
structure Released (after final : Store) (h : Handle) : Prop where
  closed : ∀ b, after.buffer? h = some b →
    ∃ b', final.buffer? h = some b' ∧ IsClosed b' ∧ b'.align = b.align
  others : ∀ h' ≠ h, final.buffer? h' = after.buffer? h'
  /-- So whatever slice the body kept still reads as it did. -/
  memory_eq : final.memory = after.memory
  slots_eq : final.slots = after.slots
  holds_eq : final.holds = after.holds

/-- Closing releases the buffer, and nothing else. -/
theorem released_close (after : Store) (h : Handle) : Released after (after.close h) h where
  closed b hb := by
    have hfinal : (after.close h).buffer? h = some b.close := by
      rw [buffer?_close, hb, Option.map_some, if_pos rfl]
    exact ⟨b.close, hfinal, isClosed_close b, rfl⟩
  others h' hne := by
    rw [buffer?_close]
    simp only [if_neg (Ne.symm hne), Option.map_id']
  memory_eq := rfl
  slots_eq := rfl
  holds_eq := rfl

/-- A fresh window is as long as was asked for and all zero. -/
theorem lent_acquire {r : Request} (hr : r.Granted) (a : Allocator) (s : Store) :
    Lent s ((Action.acquire r).apply a s) r.size s.buffers.length
      (r.window s.memory.blocks.length (a s.memory.blocks.length r.total)) := by
  have hsize : (r.bytes : Int) = r.size.toInt := Int.toNat_of_nonneg (Request.granted_iff.1 hr).2.1
  have hzero := read_acquire hr a s
  rw [apply_acquire hr] at hzero ⊢
  exact
    { window_eq := by
        simp [Store.window, Store.buffer?, Request.buffer]
      length_eq := hsize
      capacity_eq := hsize
      zero := hzero
      blocks_eq := ⟨rfl, _, rfl⟩
      buffers_eq := ⟨rfl, _, rfl, rfl⟩
      slots_eq := rfl
      holds_eq := rfl }

/-- An acquisition that succeeds is that of a granted request. -/
theorem lent_of_acquire {a : Allocator} {s opened : Store} {size align : Int64} {h : Handle}
    (hacquire : s.acquire a size align = .ok (opened, h)) : ∃ v, Lent s opened size h v := by
  cases hr : refusal? size align with
  | some e =>
    rw [store_acquire_of_refusal hr] at hacquire
    contradiction
  | none =>
    have hgranted : Request.Granted ⟨size, align⟩ := hr
    rw [store_acquire_eq hgranted] at hacquire
    have hpair := Except.ok.inj hacquire
    have hopened : (Action.acquire ⟨size, align⟩).apply a s = opened := congrArg Prod.fst hpair
    have hhandle : s.buffers.length = h := congrArg Prod.snd hpair
    subst hopened hhandle
    exact ⟨_, lent_acquire hgranted a s⟩

/-- A scope that is not refused is its body, run once on the lent window, and the release. -/
theorem withBuffer_of_lent {a : Allocator} {s opened : Store} {size align : Int64} {h : Handle}
    {v : Slice} (hacquire : s.acquire a size align = .ok (opened, h))
    (hlent : Lent s opened size h v) {β : Type} (body : Store → Option Slice → Store × β) :
    s.withBuffer a size align body =
      .ok ((body opened (some v)).1.close h, (body opened (some v)).2) := by
  rw [Store.withBuffer, hacquire]
  simp only [hlent.window_eq]

/-- A scope that cannot acquire ends before its body. -/
theorem withBuffer_of_error {a : Allocator} {s : Store} {size align : Int64}
    {stop : Stop BufferError} (hacquire : s.acquire a size align = .error stop) {β : Type}
    (body : Store → Option Slice → Store × β) :
    s.withBuffer a size align body = .error stop := by
  rw [Store.withBuffer, hacquire]

end Buffer

/-! ## open buffers -/

namespace Store

def openHandles (s : Store) : Finset Handle :=
  (Finset.range s.buffers.length).filter fun h => (s.buffer? h).any fun b => !b.isClosed

theorem mem_openHandles {s : Store} {h : Handle} :
    h ∈ s.openHandles ↔ ∃ b, s.buffer? h = some b ∧ b.isClosed = false := by
  have hany : ((s.buffer? h).any fun b => !b.isClosed) = true ↔
      ∃ b, s.buffer? h = some b ∧ b.isClosed = false := by
    cases s.buffer? h <;> simp
  rw [openHandles, Finset.mem_filter, Finset.mem_range, hany, and_iff_right_iff_imp]
  rintro ⟨b, hb, -⟩
  exact (List.getElem?_eq_some_iff.1 hb).1

theorem openHandles_congr {s t : Store} (h : s.buffers = t.buffers) :
    s.openHandles = t.openHandles := by
  unfold openHandles buffer?
  rw [h]

/-- Closing takes one handle from those that are open. -/
theorem openHandles_close (s : Store) (h : Handle) :
    (s.close h).openHandles = s.openHandles.erase h := by
  ext h'
  rw [Finset.mem_erase, mem_openHandles, mem_openHandles, Buffer.buffer?_close]
  by_cases heq : h = h'
  · have hclosed : ∀ b : Buffer, b.close.isClosed = true := fun _ => rfl
    cases s.buffer? h' <;> simp [heq, hclosed]
  · cases s.buffer? h' <;> simp [heq, Ne.symm heq]

end Store

namespace Buffer

/-- Lending opens one handle more. -/
theorem Lent.openHandles_eq {s opened : Store} {size : Int64} {h : Handle} {v : Slice}
    (hlent : Lent s opened size h v) : opened.openHandles = insert h s.openHandles := by
  obtain ⟨rfl, b, hbuffers, hopen⟩ := hlent.buffers_eq
  ext h'
  rw [Finset.mem_insert, Store.mem_openHandles, Store.mem_openHandles]
  unfold Store.buffer?
  rw [hbuffers]
  constructor
  · rintro ⟨b', hb', hopen'⟩
    rcases getElem?_concat_cases hb' with hold | ⟨rfl, -⟩
    · exact Or.inr ⟨b', hold, hopen'⟩
    · exact Or.inl rfl
  · rintro (rfl | ⟨b', hb', hopen'⟩)
    · exact ⟨b, List.getElem?_concat_length, hopen⟩
    · have hlt := (List.getElem?_eq_some_iff.1 hb').1
      exact ⟨b', (List.getElem?_append_left hlt).trans hb', hopen'⟩

/-- No action takes a buffer away. -/
theorem length_buffers_replay (a : Allocator) (s : Store) (xs : List Action) :
    s.buffers.length ≤ (replay a s xs).buffers.length := by
  by_contra hlt
  have hb : s.buffer? (replay a s xs).buffers.length =
      some (s.buffers.get ⟨_, Nat.lt_of_not_le hlt⟩) := List.getElem?_eq_getElem _
  have hnone : (replay a s xs).buffer? (replay a s xs).buffers.length = none :=
    List.getElem?_eq_none (Nat.le_refl _)
  rcases replay_buffer? a hb xs with hsame | hclosed
  · rw [hnone] at hsame
    contradiction
  · rw [hnone] at hclosed
    contradiction

/-- No action opens a buffer again. -/
theorem mem_openHandles_of_replay {a : Allocator} {s : Store} {xs : List Action} {h : Handle}
    (hopen : h ∈ (replay a s xs).openHandles) (hlt : h < s.buffers.length) :
    h ∈ s.openHandles := by
  obtain ⟨b', hb', hopen'⟩ := Store.mem_openHandles.1 hopen
  have hb : s.buffer? h = some (s.buffers.get ⟨h, hlt⟩) := List.getElem?_eq_getElem hlt
  refine Store.mem_openHandles.2 ⟨_, hb, ?_⟩
  rcases replay_buffer? a hb xs with hsame | hclosed
  · have heq := Option.some.inj (hsame.symm.trans hb')
    rw [heq]
    exact hopen'
  · have heq := Option.some.inj (hclosed.symm.trans hb')
    rw [← heq] at hopen'
    contradiction

/-! ## callbacks -/

/-- The body of a scope, step by step. -/
inductive Callback (ε : Type) where
  | ends (outcome : Outcome ε)
  /-- Goes on as the store says. -/
  | reads (next : Store → Callback ε)
  /-- Changes the store. -/
  | acts (action : Action) (next : Callback ε)
  /-- Opens a scope, and goes on with the refusal or with how the body ended. -/
  | opens (size align : Int64) (body : Option Slice → Callback ε)
      (next : Except (Stop BufferError) (Outcome ε) → Callback ε)

namespace Callback

variable {ε : Type}

def run (a : Allocator) : Callback ε → Store → Store × Outcome ε
  | ends outcome, s => (s, outcome)
  | reads next, s => (next s).run a s
  | acts action next, s => next.run a (action.apply a s)
  | opens size align body next, s =>
    match s.withBuffer a size align fun opened w => (body w).run a opened with
    | .ok (after, outcome) => (next (.ok outcome)).run a after
    | .error stop => (next (.error stop)).run a s

/-- The handles of the buffers that a callback makes by its actions, in all the scopes it opens, and
not by opening a scope. -/
def made (a : Allocator) : Callback ε → Store → Finset Handle
  | ends _, _ => ∅
  | reads next, s => (next s).made a s
  | acts action next, s =>
    Finset.Ico s.buffers.length (action.apply a s).buffers.length ∪
      next.made a (action.apply a s)
  | opens size align body next, s =>
    match s.acquire a size align with
    | .ok (opened, h) =>
      (body (opened.window (some h))).made a opened ∪
        (next (.ok ((body (opened.window (some h))).run a opened).2)).made a
          (((body (opened.window (some h))).run a opened).1.close h)
    | .error stop => (next (.error stop)).made a s

section Opens

variable {a : Allocator} {s opened : Store} {size align : Int64} {h : Handle} {v : Slice}
  {body : Option Slice → Callback ε}
  {next : Except (Stop BufferError) (Outcome ε) → Callback ε}

/-- A callback whose scope is refused goes on with the refusal. -/
theorem run_opens_of_error {stop : Stop BufferError}
    (hacquire : s.acquire a size align = .error stop) :
    (opens size align body next).run a s = (next (.error stop)).run a s := by
  rw [run, withBuffer_of_error hacquire]

/-- A callback whose scope is lent a window runs its body, and goes on when that is closed. -/
theorem run_opens_of_lent (hacquire : s.acquire a size align = .ok (opened, h))
    (hlent : Lent s opened size h v) :
    (opens size align body next).run a s =
      (next (.ok ((body (some v)).run a opened).2)).run a
        (((body (some v)).run a opened).1.close h) := by
  rw [run, withBuffer_of_lent hacquire hlent]

theorem made_opens_of_error {stop : Stop BufferError}
    (hacquire : s.acquire a size align = .error stop) :
    (opens size align body next).made a s = (next (.error stop)).made a s := by
  rw [made, hacquire]

/-- The handles that are made are those of the body and those made after it. -/
theorem made_opens_of_lent (hacquire : s.acquire a size align = .ok (opened, h))
    (hlent : Lent s opened size h v) :
    (opens size align body next).made a s = (body (some v)).made a opened ∪
      (next (.ok ((body (some v)).run a opened).2)).made a
        (((body (some v)).run a opened).1.close h) := by
  rw [made, hacquire]
  simp only [hlent.window_eq]

end Opens

/-- What a callback does to the store is a list of actions. -/
theorem exists_replay (a : Allocator) (c : Callback ε) (s : Store) :
    ∃ xs, (c.run a s).1 = replay a s xs := by
  induction c generalizing s with
  | ends outcome => exact ⟨[], rfl⟩
  | reads next ih => exact ih s s
  | acts action next ih =>
    obtain ⟨xs, hxs⟩ := ih (action.apply a s)
    exact ⟨action :: xs, hxs⟩
  | opens size align body next ihbody ihnext =>
    cases hacquire : s.acquire a size align with
    | error stop =>
      rw [run_opens_of_error hacquire]
      exact ihnext _ s
    | ok result =>
      obtain ⟨opened, h⟩ := result
      obtain ⟨v, hlent⟩ := lent_of_acquire hacquire
      have hopened : (Action.acquire ⟨size, align⟩).apply a s = opened := by
        rw [Action.apply, hacquire]
      obtain ⟨xs, hxs⟩ := ihbody (some v) opened
      obtain ⟨ys, hys⟩ := ihnext (.ok ((body (some v)).run a opened).2)
        (((body (some v)).run a opened).1.close h)
      refine ⟨.acquire ⟨size, align⟩ :: (xs ++ .close h :: ys), ?_⟩
      rw [run_opens_of_lent hacquire hlent, hys, replay_cons, hopened, replay_append, ← hxs]
      rfl

/-- No run takes a buffer away. -/
theorem length_buffers_run (a : Allocator) (c : Callback ε) (s : Store) :
    s.buffers.length ≤ (c.run a s).1.buffers.length := by
  obtain ⟨xs, hxs⟩ := c.exists_replay a s
  rw [hxs]
  exact length_buffers_replay a s xs

/-- What a callback makes was not there before. -/
theorem le_of_mem_made (a : Allocator) (c : Callback ε) {s : Store} {h : Handle}
    (hmade : h ∈ c.made a s) : s.buffers.length ≤ h := by
  induction c generalizing s with
  | ends outcome => simp [made] at hmade
  | reads next ih => exact ih s hmade
  | acts action next ih =>
    rw [made, Finset.mem_union, Finset.mem_Ico] at hmade
    cases hmade with
    | inl hown => exact hown.1
    | inr hlater =>
      have hgrown : s.buffers.length ≤ (action.apply a s).buffers.length :=
        length_buffers_replay a s [action]
      exact Nat.le_trans hgrown (ih hlater)
  | opens size align body next ihbody ihnext =>
    cases hacquire : s.acquire a size align with
    | error stop =>
      rw [made_opens_of_error hacquire] at hmade
      exact ihnext _ hmade
    | ok result =>
      obtain ⟨opened, h'⟩ := result
      obtain ⟨v, hlent⟩ := lent_of_acquire hacquire
      obtain ⟨-, b, hbuffers, -⟩ := hlent.buffers_eq
      have hopened : s.buffers.length ≤ opened.buffers.length := by simp [hbuffers]
      rw [made_opens_of_lent hacquire hlent, Finset.mem_union] at hmade
      cases hmade with
      | inl hinner => exact Nat.le_trans hopened (ihbody _ hinner)
      | inr hlater =>
        have hbody := length_buffers_run a (body (some v)) opened
        have hclosed : (((body (some v)).run a opened).1.close h').buffers.length =
            ((body (some v)).run a opened).1.buffers.length := by simp [Store.close]
        have := ihnext _ hlater
        omega

/-- **No scope leaves its buffer open**, at any depth and on any way out: what is open after a
callback was open before it, or was made without a scope. -/
theorem mem_openHandles_run (a : Allocator) (c : Callback ε) {s : Store} {h : Handle}
    (hopen : h ∈ (c.run a s).1.openHandles) : h ∈ s.openHandles ∨ h ∈ c.made a s := by
  induction c generalizing s with
  | ends outcome => exact Or.inl hopen
  | reads next ih => exact ih s hopen
  | acts action next ih =>
    rw [made, Finset.mem_union, Finset.mem_Ico]
    cases ih hopen with
    | inr hlater => exact Or.inr (Or.inr hlater)
    | inl hafter =>
      by_cases hlt : h < s.buffers.length
      · have hreplay : h ∈ (replay a s [action]).openHandles := hafter
        exact Or.inl (mem_openHandles_of_replay hreplay hlt)
      · obtain ⟨b, hb, -⟩ := Store.mem_openHandles.1 hafter
        have hbound := (List.getElem?_eq_some_iff.1 hb).1
        exact Or.inr (Or.inl ⟨Nat.le_of_not_lt hlt, hbound⟩)
  | opens size align body next ihbody ihnext =>
    cases hacquire : s.acquire a size align with
    | error stop =>
      rw [run_opens_of_error hacquire] at hopen
      rw [made_opens_of_error hacquire]
      exact ihnext _ hopen
    | ok result =>
      obtain ⟨opened, h'⟩ := result
      obtain ⟨v, hlent⟩ := lent_of_acquire hacquire
      rw [run_opens_of_lent hacquire hlent] at hopen
      rw [made_opens_of_lent hacquire hlent, Finset.mem_union]
      cases ihnext _ hopen with
      | inr hlater => exact Or.inr (Or.inr hlater)
      | inl hafter =>
        -- the scope's own buffer is closed here, so this is another one
        rw [Store.openHandles_close, Finset.mem_erase] at hafter
        cases ihbody _ hafter.2 with
        | inr hinner => exact Or.inr (Or.inl hinner)
        | inl hbefore =>
          rw [hlent.openHandles_eq, Finset.mem_insert] at hbefore
          exact Or.inl (hbefore.resolve_left hafter.1)

end Callback

/-! ## the balance -/

/-- What is open in `final` was open in `s` or was made in between. -/
structure Balanced (s final : Store) (made : Finset Handle) : Prop where
  /-- What was made is apart from what was open. -/
  disjoint : Disjoint s.openHandles made
  openHandles_eq : final.openHandles =
    (s.openHandles ∩ final.openHandles) ∪ (made ∩ final.openHandles)
  /-- Those that are open, and those that were closed on purpose, are as many as were open before
  and those that were made and left open. -/
  card_eq : final.openHandles.card + (s.openHandles \ final.openHandles).card =
    s.openHandles.card + (made ∩ final.openHandles).card
  /-- So if none was closed on purpose, the number grows by those that were made and left open. -/
  card_of_subset : s.openHandles ⊆ final.openHandles →
    final.openHandles.card = s.openHandles.card + (made ∩ final.openHandles).card

/-- Handles are balanced if those made are new and none but they were added. -/
theorem balanced_of {s final : Store} {made : Finset Handle}
    (hnew : ∀ h ∈ made, s.buffers.length ≤ h)
    (hopen : ∀ h ∈ final.openHandles, h ∈ s.openHandles ∨ h ∈ made) : Balanced s final made := by
  have hdisjoint : Disjoint s.openHandles made := by
    rw [Finset.disjoint_left]
    intro h hs hm
    obtain ⟨b, hb, -⟩ := Store.mem_openHandles.1 hs
    have hlt := (List.getElem?_eq_some_iff.1 hb).1
    have hle := hnew h hm
    omega
  have hsplit : final.openHandles =
      (s.openHandles ∩ final.openHandles) ∪ (made ∩ final.openHandles) := by
    ext h
    have := hopen h
    rw [Finset.mem_union, Finset.mem_inter, Finset.mem_inter]
    tauto
  have hcard : final.openHandles.card =
      (s.openHandles ∩ final.openHandles).card + (made ∩ final.openHandles).card := by
    have hapart : Disjoint (s.openHandles ∩ final.openHandles) (made ∩ final.openHandles) :=
      hdisjoint.mono Finset.inter_subset_left Finset.inter_subset_left
    rw [← Finset.card_union_of_disjoint hapart, ← hsplit]
  have hbefore : (s.openHandles \ final.openHandles).card +
      (s.openHandles ∩ final.openHandles).card = s.openHandles.card :=
    Finset.card_sdiff_add_card_inter _ _
  refine ⟨hdisjoint, hsplit, by omega, ?_⟩
  intro hsubset
  rw [hcard, Finset.inter_eq_left.2 hsubset]

/-- A fresh buffer that is closed again leaves no trace among the open ones. -/
theorem Lent.erase_openHandles {s opened : Store} {size : Int64} {h : Handle} {v : Slice}
    (hlent : Lent s opened size h v) : opened.openHandles.erase h = s.openHandles := by
  rw [hlent.openHandles_eq]
  apply Finset.erase_insert
  intro hmem
  obtain ⟨b, hb, -⟩ := Store.mem_openHandles.1 hmem
  have hlt : h < s.buffers.length := (List.getElem?_eq_some_iff.1 hb).1
  exact Nat.ne_of_lt hlt hlent.buffers_eq.1

/-- What an opening does to its window opens and closes nothing. -/
theorem Opening.openHandles_replay (a : Allocator) (s : Store) (o : Opening) (w : Option Slice) :
    (replay a s (o.actions w)).openHandles = s.openHandles := by
  rw [Opening.actions, replay_append, replay_keepActions, replay_putActions]
  apply Store.openHandles_congr
  cases ho : o.keepAs <;> simp [keepIf, Store.keep]

/-- A scope of a script leaves the same buffers open, however deep it is nested. -/
theorem Scope.openHandles_run (a : Allocator) (body : Scope) (s : Store) :
    (body.run a s).1.openHandles = s.openHandles := by
  induction body generalizing s with
  | leaf o ending =>
    rw [Scope.run_fst]
    simp only [Scope.actions]
    cases hr : refusal? o.size o.align with
    | some e => rfl
    | none =>
      have hlent := lent_acquire (r := ⟨o.size, o.align⟩) hr a s
      simp only [replay_cons, replay_append, replay_nil]
      change (Store.close _ _).openHandles = _
      rw [Store.openHandles_close, Opening.openHandles_replay]
      exact hlent.erase_openHandles
  | nest o inner ih =>
    rw [Scope.run_fst]
    simp only [Scope.actions]
    cases hr : refusal? o.size o.align with
    | some e => rfl
    | none =>
      have hlent := lent_acquire (r := ⟨o.size, o.align⟩) hr a s
      simp only [replay_cons, replay_append, replay_nil]
      change (Store.close _ _).openHandles = _
      rw [Store.openHandles_close]
      split
      · have hinner := ih (replay a (o.acquired a s) (o.actions (o.window a s)))
        rw [Scope.run_fst, Opening.openHandles_replay] at hinner
        exact (congrArg (Finset.erase · _) hinner).trans hlent.erase_openHandles
      · rw [replay_nil, Opening.openHandles_replay]
        exact hlent.erase_openHandles

/-- The same balance for a callback in a scope of its own, whose buffer is closed. -/
theorem balanced_close {a : Allocator} {s opened : Store} {size : Int64} {h : Handle} {v : Slice}
    (hlent : Lent s opened size h v) {ε : Type} (c : Callback ε) :
    Balanced s ((c.run a opened).1.close h) (c.made a opened) := by
  obtain ⟨-, b, hbuffers, -⟩ := hlent.buffers_eq
  apply balanced_of
  · intro h' hmade
    have := c.le_of_mem_made a hmade
    rw [hbuffers, List.length_append] at this
    omega
  · intro h' hopen
    rw [Store.openHandles_close, Finset.mem_erase] at hopen
    cases c.mem_openHandles_run a hopen.2 with
    | inr hmade => exact Or.inr hmade
    | inl hbefore =>
      rw [hlent.openHandles_eq, Finset.mem_insert] at hbefore
      exact Or.inl (hbefore.resolve_left hopen.1)

/-- The buffer of a scope is still there when its callback is done. -/
theorem exists_buffer?_run {a : Allocator} {s opened : Store} {size : Int64} {h : Handle}
    {v : Slice} (hlent : Lent s opened size h v) {ε : Type} (c : Callback ε) :
    ∃ b, (c.run a opened).1.buffer? h = some b := by
  obtain ⟨rfl, b, hbuffers, -⟩ := hlent.buffers_eq
  have hgrown := c.length_buffers_run a opened
  rw [hbuffers, List.length_append, List.length_singleton] at hgrown
  exact ⟨_, List.getElem?_eq_getElem hgrown⟩

/-- **Scoped acquisition on every way out.**  A refused scope is the refusal, and its body is not run.
Any other runs its body once, on a fresh window, ends as the body ends, and closes its own buffer and
nothing else.  However deep callbacks open scopes and however these end, no scope adds to the buffers
that are open. -/
theorem withBuffer_scoped (a : Allocator) (s : Store) (size align : Int64) :
    (∀ stop, s.acquire a size align = .error stop →
      (∀ (β : Type) (body : Store → Option Slice → Store × β),
        s.withBuffer a size align body = .error stop) ∧
      ∀ (ε : Type) (body : Option Slice → Callback ε) next,
        (Callback.opens size align body next).run a s = (next (.error stop)).run a s) ∧
    (∀ opened h, s.acquire a size align = .ok (opened, h) → ∃ v, Lent s opened size h v ∧
      (∀ (β : Type) (body : Store → Option Slice → Store × β), ∃ final,
        s.withBuffer a size align body = .ok (final, (body opened (some v)).2) ∧
        Released (body opened (some v)).1 final h) ∧
      ∀ (ε : Type) (body : Option Slice → Callback ε), ∃ final,
        s.withBuffer a size align (fun s w => (body w).run a s) =
          .ok (final, ((body (some v)).run a opened).2) ∧
        (∃ b, final.buffer? h = some b ∧ IsClosed b) ∧
        Balanced s final ((body (some v)).made a opened)) ∧
    ∀ body : Scope, (body.run a s).1.openHandles = s.openHandles := by
  refine ⟨?_, ?_, fun body => body.openHandles_run a s⟩
  · intro stop hacquire
    exact ⟨fun β body => withBuffer_of_error hacquire body,
      fun ε body next => Callback.run_opens_of_error hacquire⟩
  · intro opened h hacquire
    obtain ⟨v, hlent⟩ := lent_of_acquire hacquire
    refine ⟨v, hlent, fun β body => ?_, fun ε body => ?_⟩
    · exact ⟨_, withBuffer_of_lent hacquire hlent body, released_close _ h⟩
    · obtain ⟨b, hb⟩ := exists_buffer?_run (a := a) hlent (body (some v))
      obtain ⟨b', hb', hclosed, -⟩ := (released_close _ h).closed b hb
      exact ⟨_, withBuffer_of_lent hacquire hlent _, ⟨b', hb', hclosed⟩,
        balanced_close hlent (body (some v))⟩

end Buffer

end ArgLine
