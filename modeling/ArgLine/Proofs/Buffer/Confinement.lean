import ArgLine.Proofs.Buffer.Ledger

/-!
# ArgLine.Proofs.Buffer.Confinement

No write leaves its window, and allocations do not disturb each other.

* `put_assigned`: a put assigns byte after byte and stops at the first index out of
  range; no other byte changes.
* `Step.run_of_writesThrough`: what is written through a slice of one allocation leaves
  every other allocation alone.
* `Step.older`: acquiring a buffer, also for a scope, leaves the allocations that are
  there as they are.
* `Step.memory_of_quiet`: every other step leaves all memory as it is.

`Confined` collects what this means for one state of a run.
-/

namespace ArgLine

namespace Memory

def byte? (m : Memory) (i p : Nat) : Option UInt8 := m.blocks[i]?.bind (·.bytes[p]?)

theorem read_congr {m m' : Memory} {u : Slice} (h : m'.blocks[u.block]? = m.blocks[u.block]?) :
    m'.read u = m.read u := by
  rw [read, read, h]

end Memory

namespace Buffer

/-! ## puts -/

def InRange (w : Option Slice) (i : Int64) : Prop :=
  0 ≤ i.toInt ∧ i.toInt < Slice.lengthOf w

/-- The memory `m'` is `m` after the first `k` bytes of the data were assigned, one after the other,
and no further byte could be. -/
structure Assigned (m : Memory) (w : Option Slice) (index : Int64) (data : Bytes) (k : Nat)
    (m' : Memory) : Prop where
  le_length : k ≤ data.length
  inRange : ∀ j < k, InRange w (index + Int64.ofNat j)
  /-- The first byte that was not assigned has an index out of range. -/
  stop : k < data.length → ¬ InRange w (index + Int64.ofNat k)
  assigned : ∀ v ∈ w, ∀ j < k,
    m'.byte? v.block (v.start + (index + Int64.ofNat j).toInt.toNat) = data[j]?
  others : ∀ i p, (∀ v ∈ w, ∀ j < k,
    ¬ (i = v.block ∧ p = v.start + (index + Int64.ofNat j).toInt.toNat)) →
    m'.byte? i p = m.byte? i p

/-- An index that starts in range counts on without wrapping around. -/
theorem toInt_add_ofNat {index : Int64} {j n : Nat} (hindex : 0 ≤ index.toInt)
    (hsum : index.toInt + j ≤ n) (hn : n < 2 ^ 63) :
    (index + Int64.ofNat j).toInt = index.toInt + j := by
  have hj : (Int64.ofNat j).toInt = j := Int64.toInt_ofNat_of_lt (by omega)
  rw [Word.toInt_add (by omega) (by omega), hj]

/-- The number of bytes that find room are those whose index is in range. -/
theorem inRange_iff_lt_room {w : Option Slice} (hw : Slice.lengthOf w < 2 ^ 63) (index : Int64)
    {j : Nat} (hj : j ≤ Slice.room w index) :
    InRange w (index + Int64.ofNat j) ↔ j < Slice.room w index := by
  have hle : 0 ≤ index ↔ 0 ≤ index.toInt := Int64.le_iff_toInt_le
  unfold Slice.room at hj ⊢
  unfold InRange
  by_cases hindex : 0 ≤ index
  · rw [if_pos hindex] at hj ⊢
    have hpos := hle.1 hindex
    by_cases hlen : index.toInt.toNat ≤ Slice.lengthOf w
    · rw [toInt_add_ofNat (n := Slice.lengthOf w) hpos (by omega) hw]
      omega
    · have hzero : j = 0 := by omega
      subst hzero
      rw [toInt_add_ofNat (n := index.toInt.toNat) hpos (by omega)
        (by have := index.toInt_lt; omega)]
      omega
  · rw [if_neg hindex] at hj ⊢
    have hzero : j = 0 := by omega
    subst hzero
    have hneg : ¬ 0 ≤ index.toInt := fun h => hindex (hle.2 h)
    have hsame : index + Int64.ofNat 0 = index := by
      change index + 0 = index
      exact Int64.add_zero index
    rw [hsame]
    omega

/-- An index that has room counts up within the window, without wrapping around. -/
theorem toNat_add_of_lt_room {v : Slice} (hv : v.length < 2 ^ 63) {index : Int64} {j : Nat}
    (hj : j < Slice.room (some v) index) :
    (index + Int64.ofNat j).toInt.toNat = index.toInt.toNat + j ∧
      index.toInt.toNat + j < v.length := by
  have hroom : Slice.room (some v) index =
      if 0 ≤ index then v.length - index.toInt.toNat else 0 := rfl
  by_cases hindex : 0 ≤ index
  · rw [if_pos hindex] at hroom
    have hpos : 0 ≤ index.toInt := Int64.le_iff_toInt_le.1 hindex
    rw [toInt_add_ofNat (n := v.length) hpos (by omega) hv]
    omega
  · rw [if_neg hindex] at hroom
    omega

/-- Storing bytes within an allocation changes these bytes and no others. -/
theorem byte?_storeAll {m : Memory} {block place : Nat} {data : Bytes} {b : Block}
    (hb : m.blocks[block]? = some b)
    (hfit : ∀ p, place ≤ p → p < place + data.length → p < b.bytes.length) (i p : Nat) :
    (m.storeAll block place data).byte? i p =
      if block = i ∧ place ≤ p ∧ p < place + data.length then data[p - place]? else m.byte? i p := by
  unfold Memory.byte?
  rw [blocks?_storeAll]
  by_cases hi : block = i
  · subst hi
    rw [hb]
    simp only [Option.map_some, if_pos, Option.bind_some, true_and]
    by_cases hp : p < b.bytes.length
    · exact Bytes.getElem?_overwrite hp
    · have hnew : (Bytes.overwrite b.bytes place data).length ≤ p := by
        rw [Bytes.length_overwrite]
        omega
      rw [if_neg (fun h => hp (hfit p h.1 h.2)), List.getElem?_eq_none hnew,
        List.getElem?_eq_none (by omega)]
  · rw [if_neg (fun h => hi h.1)]
    simp only [if_neg hi, Option.map_id']

/-- **A put assigns byte after byte**, stops at the first index out of range, and reports it. -/
theorem put_assigned {m : Memory} {w : Option Slice} (hw : Slice.lengthOf w < 2 ^ 63)
    (hfit : ∀ v ∈ w, ∃ b, m.blocks[v.block]? = some b ∧ v.start + v.length ≤ b.bytes.length)
    (index : Int64) (data : Bytes) :
    ∃ k, Assigned m w index data k (m.put w index data).1 ∧
      (m.put w index data).2 = if k < data.length then
        some (.index (index + Int64.ofNat k) (Slice.lengthOf w)) else none := by
  have hlen : (data.take (Slice.room w index)).length = min (Slice.room w index) data.length :=
    List.length_take
  refine ⟨(data.take (Slice.room w index)).length, ?_, rfl⟩
  have hle : (data.take (Slice.room w index)).length ≤ Slice.room w index := by omega
  have hrange : ∀ j < (data.take (Slice.room w index)).length,
      InRange w (index + Int64.ofNat j) := by
    intro j hj
    exact (inRange_iff_lt_room hw index (by omega)).2 (by omega)
  have hstop : (data.take (Slice.room w index)).length < data.length →
      ¬ InRange w (index + Int64.ofNat (data.take (Slice.room w index)).length) := by
    intro hlt
    rw [inRange_iff_lt_room hw index hle]
    omega
  cases w with
  | none =>
    have hroom : Slice.room none index = 0 := by simp [Slice.room, Slice.lengthOf]
    exact ⟨by omega, hrange, hstop, fun v hv => (nomatch hv), fun i p _ => rfl⟩
  | some v =>
    obtain ⟨b, hb, hfits⟩ := hfit v rfl
    -- where the `j`-th byte goes, for those that find room
    have hplace : ∀ j < (data.take (Slice.room (some v) index)).length,
        (index + Int64.ofNat j).toInt.toNat = index.toInt.toNat + j ∧
          index.toInt.toNat + j < v.length :=
      fun j hj => toNat_add_of_lt_room hw (by omega)
    have hin : ∀ p, v.start + index.toInt.toNat ≤ p →
        p < v.start + index.toInt.toNat + (data.take (Slice.room (some v) index)).length →
        p < b.bytes.length := by
      intro p hlo hhi
      have := (hplace (p - (v.start + index.toInt.toNat)) (by omega)).2
      omega
    have hbyte := byte?_storeAll hb hin
    refine ⟨by omega, hrange, hstop, ?_, ?_⟩
    · intro v' hv' j hj
      have hv : v = v' := Option.some.inj hv'
      subst hv
      obtain ⟨hindex, -⟩ := hplace j hj
      rw [hindex]
      change (m.storeAll v.block _ _).byte? v.block _ = _
      rw [hbyte, if_pos ⟨rfl, by omega, by omega⟩, List.getElem?_take, if_pos (by omega)]
      congr 1
      omega
    · intro i p hother
      change (m.storeAll v.block _ _).byte? i p = _
      rw [hbyte, if_neg]
      rintro ⟨hi, hlo, hhi⟩
      have hj : p - (v.start + index.toInt.toNat) <
          (data.take (Slice.room (some v) index)).length := by omega
      refine hother v rfl _ hj ⟨hi.symm, ?_⟩
      rw [(hplace _ hj).1]
      omega

/-! ## other allocations -/

/-- A put leaves the allocations of other slices alone. -/
theorem blocks?_put {m : Memory} {w : Option Slice} {index : Int64} {data : Bytes} {i : Nat}
    (hi : ∀ v ∈ w, i ≠ v.block) : (m.put w index data).1.blocks[i]? = m.blocks[i]? := by
  cases w with
  | none => rfl
  | some v =>
    have hne : ¬ v.block = i := fun h => hi v rfl h.symm
    change (m.storeAll v.block _ _).blocks[i]? = _
    rw [blocks?_storeAll]
    simp only [if_neg hne, Option.map_id']

/-- An append leaves every allocation but that of its slice, also if it marks its result. -/
theorem blocks?_append {m : Memory} {w : Option Slice} {data : Bytes} {i : Nat}
    (hi : ∀ v ∈ w, i ≠ v.block) :
    ((m.append w data).1.stamp mark (m.append w data).2).blocks[i]? = m.blocks[i]? := by
  cases w with
  | none =>
    unfold Memory.append
    split <;> rfl
  | some v =>
    have hne : ¬ v.block = i := fun h => hi v rfl h.symm
    unfold Memory.append
    split
    · simp only [Memory.stamp]
      split
      · rw [blocks?_storeAll, blocks?_storeAll]
        simp only [if_neg hne, Option.map_id']
      · rw [blocks?_storeAll]
        simp only [if_neg hne, Option.map_id']
    · rfl

/-- The step writes through the slice, or through none if that is missing. -/
inductive Step.WritesThrough (s : Store) : Step → Option Slice → Prop where
  | put {slot h index data} (hslot : s.slots.get? slot = some h) :
      WritesThrough s (.put slot index data) (s.window h)
  | append {slot h data} (hslot : s.slots.get? slot = some h) :
      WritesThrough s (.append slot data) (s.window h)
  | putHeld {name w index data} (hname : s.holds.get? name = some w) :
      WritesThrough s (.putHeld name index data) w

/-- A step that writes changes the memory and nothing else, and of the memory only the allocation it
writes to. -/
theorem Step.run_of_writesThrough (a : Allocator) {s : Store} {step : Step} {w : Option Slice}
    (h : step.WritesThrough s w) :
    ∃ m, (step.run a s).1 = { s with memory := m } ∧
      ∀ i, (∀ v ∈ w, i ≠ v.block) → m.blocks[i]? = s.memory.blocks[i]? := by
  cases h with
  | @put slot h index data hslot =>
    refine ⟨(s.memory.put (s.window h) index data).1, ?_, fun i hi => blocks?_put hi⟩
    rw [Step.run_fst, Step.actions, hslot, Option.elim_some, replay_putActions]
  | @append slot h data hslot =>
    refine ⟨(s.memory.append (s.window h) data).1.stamp mark
      (s.memory.append (s.window h) data).2, ?_, fun i hi => blocks?_append hi⟩
    rw [Step.run_fst, Step.actions, hslot, Option.elim_some, replay_appendActions]
  | @putHeld name w index data hname =>
    refine ⟨(s.memory.put w index data).1, ?_, fun i hi => blocks?_put hi⟩
    rw [Step.run_fst, Step.actions, hname, Option.elim_some, replay_putActions]

/-- The step puts the data through the slice from the index on. -/
inductive Step.Puts (s : Store) : Step → Option Slice → Int64 → Bytes → Prop where
  | put {slot h index data} (hslot : s.slots.get? slot = some h) :
      Puts s (.put slot index data) (s.window h) index data
  | putHeld {name w index data} (hname : s.holds.get? name = some w) :
      Puts s (.putHeld name index data) w index data

/-- A put answers with a fault exactly if the memory has one. -/
theorem putThrough_snd (s : Store) (w : Option Slice) (index : Int64) (data : Bytes)
    {view : Store → Answer} (hview : ∀ s f, view s ≠ .fault f) (f : Fault) :
    (putThrough s w index data view).2 = .fault f ↔
      (s.memory.put w index data).2 = some f := by
  unfold putThrough
  cases hput : s.memory.put w index data with
  | mk m fault =>
    cases fault with
    | none => simp [hview]
    | some g => simp

/-- A step that puts does what a put of the memory does, and answers with its fault. -/
theorem Step.run_of_puts (a : Allocator) {s : Store} {step : Step} {w : Option Slice}
    {index : Int64} {data : Bytes} (h : step.Puts s w index data) :
    (step.run a s).1.memory = (s.memory.put w index data).1 ∧
      ∀ f, (step.run a s).2 = .fault f ↔ (s.memory.put w index data).2 = some f := by
  cases h with
  | put hslot =>
    constructor
    · rw [Step.run_fst, Step.actions, hslot, Option.elim_some, replay_putActions]
    · intro f
      rw [Step.run, withSlot, hslot]
      refine putThrough_snd s _ index data ?_ f
      intro s f
      simp
  | putHeld hname =>
    constructor
    · rw [Step.run_fst, Step.actions, hname, Option.elim_some, replay_putActions]
    · intro f
      rw [Step.run, withHold, hname]
      refine putThrough_snd s _ index data ?_ f
      intro s f
      simp

/-! ## steps that allocate -/

/-- A block stays where it is when another is acquired. -/
theorem blocks?_acquire {r : Request} (hr : r.Granted) (a : Allocator) {s : Store} {i : Nat}
    {k : Block} (hk : s.memory.blocks[i]? = some k) :
    ((Action.acquire r).apply a s).memory.blocks[i]? = some k := by
  have hlt := (List.getElem?_eq_some_iff.1 hk).1
  rw [apply_acquire hr]
  exact (List.getElem?_append_left hlt).trans hk

/-- A fresh window is all zero. -/
theorem read_acquire {r : Request} (hr : r.Granted) (a : Allocator) (s : Store) :
    ((Action.acquire r).apply a s).memory.read
      (r.window s.memory.blocks.length (a s.memory.blocks.length r.total)) =
        List.replicate r.bytes 0 := by
  rw [apply_acquire hr]
  exact hr.read_window ..

/-- The window that an opening is given lies in an allocation of its own. -/
theorem Opening.window_eq (a : Allocator) (s : Store) {o : Opening}
    (hr : refusal? o.size o.align = none) :
    o.window a s = some (Request.window ⟨o.size, o.align⟩ s.memory.blocks.length
      (a s.memory.blocks.length (Request.total ⟨o.size, o.align⟩))) := by
  have hgranted : Request.Granted ⟨o.size, o.align⟩ := hr
  have hbuffer : (o.acquired a s).buffer? s.buffers.length =
      some (Request.buffer ⟨o.size, o.align⟩ s.memory.blocks.length
        (a s.memory.blocks.length (Request.total ⟨o.size, o.align⟩))) := by
    rw [Opening.acquired, apply_acquire hgranted]
    exact List.getElem?_concat_length
  rw [Opening.window, Store.window, Option.bind_some, hbuffer]
  rfl

/-- The memory after the bytes of an opening were put. -/
def Opening.filled (a : Allocator) (s : Store) (o : Opening) : Memory :=
  ((o.acquired a s).memory.put (o.window a s) o.index o.data).1

/-- The actions of an opening fill the memory as it does. -/
theorem Opening.memory_replay (a : Allocator) (s : Store) (o : Opening) :
    (replay a (o.acquired a s) (o.actions (o.window a s))).memory = o.filled a s := by
  rw [Opening.actions, replay_append, replay_keepActions, replay_putActions]
  cases ho : o.keepAs with
  | none => simp only [keepIf, Opening.filled]
  | some n => simp only [keepIf, Opening.filled, Store.keep]

/-- An opening leaves the allocations that were there before it alone. -/
theorem Opening.older (a : Allocator) {s : Store} {o : Opening}
    (hr : refusal? o.size o.align = none) {i : Nat} {k : Block}
    (hk : s.memory.blocks[i]? = some k) : (o.filled a s).blocks[i]? = some k := by
  have hlt := (List.getElem?_eq_some_iff.1 hk).1
  rw [Opening.filled, blocks?_put]
  · exact blocks?_acquire (r := ⟨o.size, o.align⟩) hr a hk
  · intro v hv
    rw [Opening.window_eq a s hr] at hv
    have hblock : v.block = s.memory.blocks.length := by
      rw [← Option.some.inj hv]
      rfl
    omega

/-- What a scope acquires and does first. -/
def Scope.opening : Scope → Opening
  | .leaf o _ => o
  | .nest o _ => o

/-- A scope whose request is refused does nothing. -/
theorem Scope.run_of_refusal (a : Allocator) (s : Store) (body : Scope) {e : BufferError}
    (hr : refusal? body.opening.size body.opening.align = some e) : (body.run a s).1 = s := by
  rw [Scope.run_fst]
  cases body with
  | leaf o ending => simp only [Scope.opening] at hr; simp only [Scope.actions, hr, replay_nil]
  | nest o inner => simp only [Scope.opening] at hr; simp only [Scope.actions, hr, replay_nil]

/-- A scope that is not refused leaves the memory as its opening filled it, or as the scope inside
leaves it from there. -/
theorem Scope.memory_run (a : Allocator) (s : Store) (body : Scope)
    (hr : refusal? body.opening.size body.opening.align = none) :
    (body.run a s).1.memory = body.opening.filled a s ∨
      ∃ inner s', body = .nest body.opening inner ∧ s'.memory = body.opening.filled a s ∧
        (body.run a s).1.memory = (inner.run a s').1.memory := by
  rw [Scope.run_fst, ← Opening.memory_replay]
  cases body with
  | leaf o ending =>
    simp only [Scope.opening] at hr ⊢
    simp only [Scope.actions, hr, replay_cons, replay_append, replay_nil]
    exact Or.inl rfl
  | nest o inner =>
    simp only [Scope.opening] at hr ⊢
    simp only [Scope.actions, hr, replay_cons, replay_append, replay_nil]
    split
    · refine Or.inr ⟨inner, _, rfl, rfl, ?_⟩
      rw [Scope.run_fst]
      rfl
    · exact Or.inl rfl

/-- A scope leaves the allocations that were there before it alone, however deep it is nested. -/
theorem Scope.older (a : Allocator) (body : Scope) {s : Store} {i : Nat} {k : Block}
    (hk : s.memory.blocks[i]? = some k) : (body.run a s).1.memory.blocks[i]? = some k := by
  induction body generalizing s with
  | leaf o ending =>
    cases hr : refusal? o.size o.align with
    | some e => rw [Scope.run_of_refusal a s (.leaf o ending) hr]; exact hk
    | none =>
      rcases Scope.memory_run a s (.leaf o ending) hr with hmem | ⟨_, _, hbody, -, -⟩
      · rw [hmem]
        exact Opening.older a hr hk
      · contradiction
  | nest o inner ih =>
    cases hr : refusal? o.size o.align with
    | some e => rw [Scope.run_of_refusal a s (.nest o inner) hr]; exact hk
    | none =>
      have hfilled : (o.filled a s).blocks[i]? = some k := Opening.older a hr hk
      rcases Scope.memory_run a s (.nest o inner) hr with hmem | ⟨_, s', hbody, hs', hmem⟩
      · rw [hmem]
        exact hfilled
      · cases hbody
        rw [hmem]
        exact ih (hs' ▸ hfilled)

/-- The steps that make allocations. -/
def Step.allocates : Step → Bool
  | .acquire .. | .scope _ => true
  | _ => false

/-- **An allocation that is there stays as it is** when others are made. -/
theorem Step.older (a : Allocator) {step : Step} (h : step.allocates = true) {s : Store} {i : Nat}
    {k : Block} (hk : s.memory.blocks[i]? = some k) :
    (step.run a s).1.memory.blocks[i]? = some k := by
  cases step with
  | acquire slot size align =>
    rw [Step.run_fst]
    simp only [Step.actions]
    cases hr : refusal? size align with
    | some e => exact hk
    | none => exact blocks?_acquire (r := ⟨size, align⟩) hr a hk
  | scope body => exact body.older a hk
  | _ => contradiction

/-! ## steps that leave memory alone -/

/-- The steps that neither allocate nor write. -/
def Step.quiet : Step → Bool
  | .acquire .. | .scope _ | .put .. | .append .. | .putHeld .. => false
  | _ => true

/-- **All other steps leave every byte as it is.** -/
theorem Step.memory_of_quiet (a : Allocator) (s : Store) {step : Step} (h : step.quiet = true) :
    (step.run a s).1.memory = s.memory := by
  have hslot {f : Option Handle → Store × Answer} (hf : ∀ x, (f x).1.memory = s.memory)
      (slot : Bytes) : (withSlot s slot f).1.memory = s.memory :=
    withSlot_preserves (P := (·.memory = s.memory)) rfl hf slot
  cases step with
  | clear slot => rfl
  | share slot source => exact hslot (fun x => rfl) source
  | clone slot source =>
    refine hslot (fun x => ?_) source
    cases x.bind s.buffer? <;> rfl
  | get slot => exact hslot (fun x => rfl) slot
  | close slot =>
    refine hslot (fun x => ?_) slot
    cases x <;> rfl
  | align slot =>
    refine hslot (fun x => ?_) slot
    cases x.bind s.buffer? <;> rfl
  | length slot => exact hslot (fun x => rfl) slot
  | closed slot => exact hslot (fun x => rfl) slot
  | hasAddress slot => exact hslot (fun x => rfl) slot
  | hold slot name => exact hslot (fun x => rfl) slot
  | held name => exact withHold_preserves (P := (·.memory = s.memory)) rfl (fun w => rfl) name
  | _ => contradiction

theorem holds_close (a : Allocator) (s : Store) (slot : Bytes) :
    ((Step.close slot).run a s).1.holds = s.holds := by
  refine withSlot_preserves (P := (·.holds = s.holds)) rfl (fun x => ?_) slot
  cases x <;> rfl

/-! ## puts through windows -/

/-- A window fits into its allocation, and its length into a word. -/
theorem Sound.fits {a : Allocator} {s : Store} {l : Ledger} (hs : Sound a s l) {w : Option Slice}
    (hw : ∀ v ∈ w, l.IsWindow a v) :
    Slice.lengthOf w < 2 ^ 63 ∧
      ∀ v ∈ w, ∃ b, s.memory.blocks[v.block]? = some b ∧ v.start + v.length ≤ b.bytes.length := by
  cases w with
  | none => exact ⟨by decide, fun v hv => nomatch hv⟩
  | some v =>
    obtain ⟨r, hr, hv⟩ := hw v rfl
    have hstart : v.start = r.offset (a v.block r.total) := congrArg Slice.start hv
    have hlength : v.length = r.bytes := congrArg Slice.length hv
    have hgranted := hs.granted _ r hr
    have htotal := hgranted.total_lt
    have hinside := hgranted.offset_add_bytes_lt (a v.block r.total)
    constructor
    · change v.length < 2 ^ 63
      omega
    · intro v' hv'
      have hsame : v = v' := Option.some.inj hv'
      subst hsame
      obtain ⟨content, hb, hpad⟩ := hs.block _ r hr
      refine ⟨_, hb, ?_⟩
      have := hpad.length_eq
      change v.start + v.length ≤ content.length
      omega

/-- A put that faults ends the body before it goes on. -/
theorem Opening.body_of_fault {o : Opening} {s : Store} {w : Option Slice} {m : Memory}
    {f : Fault} (hput : s.memory.put w o.index o.data = (m, some f))
    (rest : Store → SliceView → Option UInt64 → SliceView → Store × ScopeReport) :
    o.body rest s w = ({ keepIf s o.keepAs w with memory := m },
      .ended (viewSlice s.memory w) (residue? s.memory w o.align) none (.aborted f)) := by
  have hkeep : (keepIf s o.keepAs w).memory = s.memory := by
    cases o.keepAs <;> rfl
  rw [Opening.body, hkeep, hput]

/-- A scope acquires, runs its body and closes what it acquired. -/
theorem withBuffer_eq (a : Allocator) (s : Store) {o : Opening}
    (hr : refusal? o.size o.align = none) {β : Type} (body : Store → Option Slice → Store × β) :
    s.withBuffer a o.size o.align body =
      .ok ((body (o.acquired a s) (o.window a s)).1.close s.buffers.length,
        (body (o.acquired a s) (o.window a s)).2) := by
  rw [Store.withBuffer, store_acquire_eq (r := ⟨o.size, o.align⟩) hr]
  rfl

/-- What was put in a scope is there after it. -/
theorem Scope.kept (a : Allocator) {s : Store} {body : Scope}
    (hr : refusal? body.opening.size body.opening.align = none) {i : Nat} {k : Block}
    (hk : (body.opening.filled a s).blocks[i]? = some k) :
    (body.run a s).1.memory.blocks[i]? = some k := by
  rcases Scope.memory_run a s body hr with hmem | ⟨inner, s', -, hs', hmem⟩
  · rw [hmem]
    exact hk
  · rw [hmem]
    exact inner.older a (hs' ▸ hk)

/-- A put that stops in the body of a scope ends the scope. -/
theorem Scope.run_of_fault (a : Allocator) {s : Store} {body : Scope}
    (hr : refusal? body.opening.size body.opening.align = none) {m : Memory} {f : Fault}
    (hput : (body.opening.acquired a s).memory.put (body.opening.window a s) body.opening.index
      body.opening.data = (m, some f)) :
    (body.run a s).1.memory = m ∧
      ∃ first residue, (body.run a s).2 = .ended first residue none (.aborted f) := by
  cases body with
  | leaf o ending =>
    simp only [Scope.opening] at hr hput
    rw [Scope.run, withBuffer_eq a s hr, Opening.body_of_fault hput]
    exact ⟨rfl, _, _, rfl⟩
  | nest o inner =>
    simp only [Scope.opening] at hr hput
    rw [Scope.run, withBuffer_eq a s hr, Opening.body_of_fault hput]
    exact ⟨rfl, _, _, rfl⟩

/-! ## whole runs -/

/-- The slice can be written through: it is the window of a buffer, or it was kept. -/
def Visible (s : Store) (v : Slice) : Prop :=
  (∃ h, s.window (some h) = some v) ∨ ∃ n, s.holds.get? n = some (some v)

/-- What can be written through is the window of an allocation. -/
theorem Sound.isWindow {a : Allocator} {s : Store} {l : Ledger} (hs : Sound a s l) {v : Slice}
    (hv : Visible s v) : l.IsWindow a v := by
  cases hv with
  | inl hwindow =>
    obtain ⟨h, hh⟩ := hwindow
    exact hs.window hh
  | inr hheld =>
    obtain ⟨n, hn⟩ := hheld
    exact hs.hold n v hn

/-- How memory is kept in order in a store, with what was asked for so far. -/
structure Confined (a : Allocator) (s : Store) (l : Ledger) : Prop where
  /-- An allocation is zero outside its window. -/
  padding : ∀ (i : Nat) (k : Block), s.memory.blocks[i]? = some k → ∃ r,
    l.requests[i]? = some r ∧ k.bytes.length = r.bytes + r.boundary ∧
    ∀ j < k.bytes.length, j < r.offset k.base ∨ r.offset k.base + r.bytes ≤ j →
      k.bytes[j]? = some 0
  /-- What can be written through is the window of its allocation, and cannot grow. -/
  windows : ∀ v, Visible s v → ∃ r k, l.requests[v.block]? = some r ∧
    s.memory.blocks[v.block]? = some k ∧ v = ⟨v.block, r.offset k.base, r.bytes, r.bytes⟩
  /-- A write through a slice of one allocation is not seen through a slice of another, and no
  buffer, slot or kept slice changes. -/
  apart : ∀ step w, Step.WritesThrough s step w →
    (∀ u : Slice, (∀ v ∈ w, u.block ≠ v.block) →
      (step.run a s).1.memory.read u = s.memory.read u) ∧
    (step.run a s).1.buffers = s.buffers ∧ (step.run a s).1.slots = s.slots ∧
    (step.run a s).1.holds = s.holds
  /-- A put assigns byte after byte, and ends with a fault at the first index out of range. -/
  puts : ∀ step w index data, Step.Puts s step w index data → ∃ k,
    Assigned s.memory w index data k (step.run a s).1.memory ∧
    ∀ f, (step.run a s).2 = .fault f ↔
      k < data.length ∧ f = .index (index + Int64.ofNat k) (Slice.lengthOf w)
  /-- So does the put in a scope; what it assigned is there after the scope, and its fault ends the
  scope. -/
  scopePuts : ∀ (body : Scope) (o : Opening), body.opening = o →
    refusal? o.size o.align = none → ∃ k,
    Assigned (o.acquired a s).memory (o.window a s) o.index o.data k (o.filled a s) ∧
    (∀ (i : Nat) (b : Block), (o.filled a s).blocks[i]? = some b →
      (body.run a s).1.memory.blocks[i]? = some b) ∧
    (k < o.data.length → (body.run a s).1.memory = o.filled a s ∧ ∃ first residue,
      (body.run a s).2 = .ended first residue none
        (.aborted (.index (o.index + Int64.ofNat k) (Slice.lengthOf (o.window a s)))))
  /-- New allocations leave those that are there alone. -/
  older : ∀ step : Step, step.allocates = true → ∀ (i : Nat) (k : Block),
    s.memory.blocks[i]? = some k → (step.run a s).1.memory.blocks[i]? = some k
  /-- Every other step leaves all bytes alone. -/
  quiet : ∀ step : Step, step.quiet = true → (step.run a s).1.memory = s.memory
  /-- A kept slice reads the same after a buffer is closed. -/
  heldAfterClose : ∀ slot name w, s.holds.get? name = some w →
    ((Step.close slot).run a s).1.holds.get? name = some w ∧
    ((Step.close slot).run a s).1.memory.readAll w = s.memory.readAll w

/-- A sound store confines whatever step is done next. -/
theorem Sound.confined {a : Allocator} {s : Store} {l : Ledger} (hs : Sound a s l) :
    Confined a s l where
  padding i k hk := by
    have hlt : i < l.requests.length := by
      rw [← hs.length_blocks]
      exact (List.getElem?_eq_some_iff.1 hk).1
    have hr := List.getElem?_eq_getElem hlt
    obtain ⟨content, hb, hpad⟩ := hs.block i _ hr
    have hblock : k = ⟨a i l.requests[i].total, content⟩ := Option.some.inj (hk.symm.trans hb)
    subst hblock
    refine ⟨_, hr, hpad.length_eq, ?_⟩
    intro j hj hout
    rw [hpad.length_eq] at hj
    exact hpad.zero j hj hout
  windows v hv := by
    obtain ⟨r, hr, hw⟩ := hs.isWindow hv
    obtain ⟨content, hb, -⟩ := hs.block _ r hr
    exact ⟨r, _, hr, hb, hw⟩
  apart step w h := by
    obtain ⟨m, hrun, hother⟩ := Step.run_of_writesThrough a h
    rw [hrun]
    exact ⟨fun u hu => Memory.read_congr (hother u.block hu), rfl, rfl, rfl⟩
  puts step w index data h := by
    have hw : ∀ v ∈ w, l.IsWindow a v := by
      cases h with
      | put hslot => exact fun v hv => hs.window hv
      | putHeld hname => exact fun v hv => hs.hold _ v (hname.trans (congrArg some hv))
    obtain ⟨hsmall, hfit⟩ := hs.fits hw
    obtain ⟨k, hassigned, hfault⟩ := put_assigned hsmall hfit index data
    obtain ⟨hmemory, hanswer⟩ := Step.run_of_puts a h
    refine ⟨k, by rw [hmemory]; exact hassigned, fun f => ?_⟩
    rw [hanswer, hfault]
    split
    · next hlt => simp [hlt, eq_comm]
    · next hle => simp [hle]
  scopePuts body o ho hr := by
    subst ho
    have hopened := hs.acquire (r := ⟨body.opening.size, body.opening.align⟩) hr
    obtain ⟨hsmall, hfit⟩ := hopened.fits (w := body.opening.window a s)
      fun v hv => hopened.window hv
    obtain ⟨k, hassigned, hfault⟩ := put_assigned hsmall hfit body.opening.index
      body.opening.data
    refine ⟨k, hassigned, fun i b hb => Scope.kept a hr hb, fun hlt => ?_⟩
    rw [if_pos hlt] at hfault
    exact Scope.run_of_fault a hr (Prod.ext rfl hfault)
  older step h i k hk := Step.older a h hk
  quiet step h := Step.memory_of_quiet a s h
  heldAfterClose slot name w hw := by
    rw [holds_close, Step.memory_of_quiet a s rfl]
    exact ⟨hw, rfl⟩

/-- **No write ever leaves its window, and allocations do not disturb each other**, at every moment
of every run: between two steps, and inside a scope. -/
theorem run_confined (a : Allocator) (steps : List Step) :
    (∀ xs ys, steps = xs ++ ys → ∃ n, moment a steps n = (runSteps a .empty xs).1) ∧
    ∀ n, Confined a (moment a steps n) (ledgerAt a steps n) := by
  refine ⟨?_, fun n => (sound_moment a steps n).confined⟩
  rintro xs ys rfl
  exact ⟨_, moment_of_append a xs ys⟩

end Buffer

end ArgLine
