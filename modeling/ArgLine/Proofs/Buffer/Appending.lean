import ArgLine.Proofs.Buffer.Relocation

/-!
# ArgLine.Proofs.Buffer.Appending

Appending to a window never runs over its end.

A window is as long as its capacity at every moment of a run (`capacityOf_eq`).  So
an append of anything makes a copy and leaves all memory as it is
(`append_of_ne_nil`), although the allocation has room behind the window.  An append of
nothing copies nothing: its result is the window itself, and the byte that marks the
result is stored in the window (`append_nil`).  Every slice of the same allocation
that can be seen is that window (`Ledger.IsWindow.eq_of_block`), so all of them show
the mark, and nothing else does.
-/

namespace ArgLine

namespace Buffer

/-! ## memory -/

theorem storeAll_nil (m : Memory) (block place : Nat) : m.storeAll block place [] = m := by
  have hid : (fun b : Block => { b with bytes := Bytes.overwrite b.bytes place [] }) = id := by
    funext b
    simp [Bytes.overwrite]
  rw [Memory.storeAll, hid, List.modify_id]

/-- An append to a full slice copies, if there is anything to append. -/
theorem append_of_ne_nil {w : Option Slice} (hfull : Slice.capacityOf w = Slice.lengthOf w)
    {data : Bytes} (hdata : data ≠ []) (m : Memory) :
    m.append w data = (m, .copied (m.readAll w ++ data)) := by
  have hpos : 0 < data.length := List.length_pos_iff.2 hdata
  unfold Memory.append
  rw [if_neg (by omega)]

/-- An append of nothing to a full slice gives the slice. -/
theorem append_nil {w : Option Slice} (hfull : Slice.capacityOf w = Slice.lengthOf w)
    (m : Memory) : m.append w [] = (m, .inPlace w) := by
  cases w with
  | none => rfl
  | some v =>
    have hfits : Slice.lengthOf (some v) + ([] : Bytes).length ≤ Slice.capacityOf (some v) := by
      rw [hfull]
      exact Nat.le_refl _
    unfold Memory.append
    rw [if_pos hfits]
    simp [storeAll_nil]

theorem address_storeAll (m : Memory) (block place : Nat) (data : Bytes) (u : Slice) :
    (m.storeAll block place data).address u = m.address u := by
  unfold Memory.address
  rw [blocks?_storeAll]
  cases m.blocks[u.block]? with
  | none => rfl
  | some b =>
    simp only [Option.map_some]
    split <;> rfl

/-! ## full windows -/

section Windows

variable {a : Allocator} {s : Store} {l : Ledger}

/-- An allocation has one window. -/
theorem Ledger.IsWindow.eq_of_block {u v : Slice} (hu : l.IsWindow a u) (hv : l.IsWindow a v)
    (hblock : u.block = v.block) : u = v := by
  obtain ⟨r, hr, hu⟩ := hu
  obtain ⟨r', hr', hv⟩ := hv
  rw [hblock] at hr hu
  have hreq : r = r' := Option.some.inj (hr.symm.trans hr')
  rw [hu, hreq, ← hv]

/-- What is seen as a window is as long as its capacity. -/
theorem capacityOf_eq {w : Option Slice} (hw : ∀ v ∈ w, l.IsWindow a v) :
    Slice.capacityOf w = Slice.lengthOf w := by
  cases w with
  | none => rfl
  | some v =>
    obtain ⟨r, -, hv⟩ := hw v rfl
    change v.capacity = v.length
    rw [hv]
    rfl

/-- As many bytes are read as the window is long. -/
theorem Sound.length_readAll (hs : Sound a s l) {w : Option Slice}
    (hw : ∀ v ∈ w, l.IsWindow a v) : (s.memory.readAll w).length = Slice.lengthOf w := by
  cases w with
  | none => rfl
  | some v =>
    obtain ⟨b, hb, hfit⟩ := (hs.fits hw).2 v rfl
    simp only [Memory.readAll, Memory.read, hb, Slice.lengthOf, List.length_take, List.length_drop]
    omega

/-- The result of an append is as long as the window and the data together. -/
theorem Sound.length_append (hs : Sound a s l) {w : Option Slice}
    (hw : ∀ v ∈ w, l.IsWindow a v) (data : Bytes) :
    (s.memory.append w data).2.length = Slice.lengthOf w + data.length := by
  rw [length_append_snd, hs.length_readAll hw, ite_self]

end Windows

theorem lengthOf_bind (s : Store) (h : Option Handle) :
    lengthOf (h.bind s.buffer?) = Slice.lengthOf (s.window h) := by
  unfold Store.window
  cases h.bind s.buffer? with
  | none => rfl
  | some b => rfl

/-! ## the mark -/

/-- A slice with the mark in the place of its first byte. -/
def SliceView.marked (v : SliceView) : SliceView := { v with bytes := mark :: v.bytes.tail }

/-- A buffer with the mark in the place of the first byte of its window. -/
def View.marked (v : View) : View := { v with window := v.window.marked }

/-- Whether a slice is there and lies in the `i`-th allocation. -/
def liesIn (i : Nat) (w : Option Slice) : Bool := w.any (·.block = i)

/-- The store `t` is `s` after the mark was stored in the first byte of the window `v`. -/
structure Marked (s t : Store) (v : Slice) : Prop where
  /-- Every open buffer of the allocation shows the mark, and no other buffer changes. -/
  view : ∀ h, viewBuffer t.memory (t.buffer? h) =
    if liesIn v.block (s.window (some h)) then (viewBuffer s.memory (s.buffer? h)).marked
    else viewBuffer s.memory (s.buffer? h)
  /-- So does every slice of it that was kept, and no other. -/
  held : ∀ n w, s.holds.get? n = some w → viewSlice t.memory w =
    if liesIn v.block w then (viewSlice s.memory w).marked else viewSlice s.memory w
  /-- Of all bytes of all allocations one changes. -/
  byte : ∀ i p, t.memory.byte? i p =
    if v.block = i ∧ p = v.start then some mark else s.memory.byte? i p
  address : ∀ u, t.memory.address u = s.memory.address u
  buffers_eq : t.buffers = s.buffers
  slots_eq : t.slots = s.slots
  holds_eq : t.holds = s.holds

section Marks

variable {a : Allocator} {s : Store} {l : Ledger} {v : Slice}

/-- What a window shows after the mark was stored. -/
theorem Sound.viewSlice_mark (hs : Sound a s l) (hv : l.IsWindow a v) (hpos : 0 < v.length)
    {w : Option Slice} (hw : ∀ u ∈ w, l.IsWindow a u) :
    viewSlice (s.memory.storeAll v.block v.start [mark]) w =
      if liesIn v.block w then (viewSlice s.memory w).marked else viewSlice s.memory w := by
  cases w with
  | none => rfl
  | some u =>
    by_cases hblock : u.block = v.block
    · obtain rfl : u = v := (hw u rfl).eq_of_block hv hblock
      obtain ⟨b, hb, hfit⟩ := (hs.fits hw).2 u rfl
      have hread : (s.memory.storeAll u.block u.start [mark]).read u =
          mark :: (s.memory.read u).tail := by
        have hlength : (s.memory.read u).length = u.length := hs.length_readAll hw
        have hstored := read_storeAll hb hfit 0 [mark]
        rw [Nat.add_zero] at hstored
        rw [hstored]
        cases hcontent : s.memory.read u with
        | nil => simp [hcontent] at hlength; omega
        | cons x xs => simp [Bytes.overwrite]
      simp [liesIn, viewSlice, SliceView.marked, Memory.readAll, hread]
    · have hread : (s.memory.storeAll v.block v.start [mark]).read u = s.memory.read u := by
        apply Memory.read_congr
        rw [blocks?_storeAll]
        simp [Ne.symm hblock]
      simp [liesIn, hblock, viewSlice, Memory.readAll, hread]

/-- The mark shows in the open buffers of its allocation, and in no others. -/
theorem Sound.viewBuffer_mark (hs : Sound a s l) (hv : l.IsWindow a v) (hpos : 0 < v.length)
    (h : Handle) :
    viewBuffer (s.memory.storeAll v.block v.start [mark]) (s.buffer? h) =
      if liesIn v.block (s.window (some h)) then (viewBuffer s.memory (s.buffer? h)).marked
      else viewBuffer s.memory (s.buffer? h) := by
  have hwindow : (s.buffer? h).bind Buffer.window = s.window (some h) := by
    unfold Store.window
    cases hb : s.buffer? h <;> simp [hb]
  have hview := hs.viewSlice_mark hv hpos (w := s.window (some h)) fun u hu => hs.window hu
  have hfirst : ∀ b : Buffer, atFirstByte (s.memory.storeAll v.block v.start [mark]) b =
      atFirstByte s.memory b := by
    intro b
    unfold atFirstByte
    cases b.window with
    | none => rfl
    | some u => simp [address_storeAll]
  simp only [viewBuffer, hwindow, hview, hfirst]
  split <;> rfl

/-- Appending nothing marks the first byte of a window, for all that share it. -/
theorem Sound.marked (hs : Sound a s l) (hv : l.IsWindow a v) (hpos : 0 < v.length) :
    Marked s { s with memory := s.memory.storeAll v.block v.start [mark] } v where
  view h := hs.viewBuffer_mark hv hpos h
  held n w hw := hs.viewSlice_mark hv hpos fun u hu => hs.hold n u (hu ▸ hw)
  byte i p := by
    obtain ⟨b, hb, hfit⟩ := (hs.fits (w := some v) fun u hu => Option.some.inj hu ▸ hv).2 v rfl
    have hone : v.block = i ∧ v.start ≤ p ∧ p < v.start + [mark].length ↔
        v.block = i ∧ p = v.start := by
      rw [List.length_singleton]
      omega
    rw [byte?_storeAll hb (by rw [List.length_singleton]; omega)]
    simp only [hone]
    split
    · next hp => simp [hp.2]
    · rfl
  address u := address_storeAll ..
  buffers_eq := rfl
  slots_eq := rfl
  holds_eq := rfl

end Marks

/-! ## the step -/

/-- The memory after an append to the slice and the mark in its result. -/
def appended (m : Memory) (w : Option Slice) (data : Bytes) : Memory :=
  (m.append w data).1.stamp mark (m.append w data).2

/-- An append is done on the window of the slot. -/
theorem run_append {s : Store} {slot : Bytes} {h : Option Handle}
    (hslot : s.slots.get? slot = some h) (a : Allocator) (data : Bytes) :
    (Step.append slot data).run a s =
      ({ s with memory := appended s.memory (s.window h) data },
        .appended (viewBuffer (appended s.memory (s.window h) data) (h.bind s.buffer?))
          (s.memory.append (s.window h) data).2.length) := by
  rw [Step.run, withSlot, hslot]
  rfl

/-- A full window has no room, so bytes that are appended to it go elsewhere. -/
theorem appended_of_ne_nil {w : Option Slice} (hfull : Slice.capacityOf w = Slice.lengthOf w)
    {data : Bytes} (hdata : data ≠ []) (m : Memory) : appended m w data = m := by
  rw [appended, append_of_ne_nil hfull hdata]
  rfl

theorem appended_nil_of_empty {w : Option Slice} (hfull : Slice.capacityOf w = Slice.lengthOf w)
    (hempty : Slice.lengthOf w = 0) (m : Memory) : appended m w [] = m := by
  rw [appended, append_nil hfull]
  cases w with
  | none => rfl
  | some v => exact if_neg (by rw [show v.length = 0 from hempty]; exact Nat.lt_irrefl 0)

/-- Appending nothing to a window still writes the mark. -/
theorem appended_nil {v : Slice} (hfull : v.capacity = v.length) (hpos : 0 < v.length)
    (m : Memory) : appended m (some v) [] = m.storeAll v.block v.start [mark] := by
  rw [appended, append_nil (w := some v) hfull]
  exact if_pos hpos

/-- **Appending to a window never runs over its end**, in every state that a run reaches and for
every slot that was set.  The result is as long as the window and the data together.  If there are
data, nothing changes at all; if there are none, the first byte of the window is marked for all who
see it, and where there is no first byte nothing changes either. -/
theorem append_exact (a : Allocator) (steps : List Step) (slot : Bytes) (h : Option Handle)
    (data : Bytes) {s t : Store} (hs : (runSteps a .empty steps).1 = s)
    (hslot : s.slots.get? slot = some h) (ht : ((Step.append slot data).run a s).1 = t) :
    ((Step.append slot data).run a s).2 =
      .appended (viewBuffer t.memory (h.bind t.buffer?))
        (lengthOf (h.bind s.buffer?) + data.length) ∧
    (data ≠ [] → t = s) ∧
    (data = [] → lengthOf (h.bind s.buffer?) = 0 → t = s) ∧
    (data = [] → 0 < lengthOf (h.bind s.buffer?) → ∃ v, s.window h = some v ∧ Marked s t v) := by
  have hsound : Sound a s (ledgerOf a steps) := hs ▸ sound_runSteps a steps
  have hw : ∀ v ∈ s.window h, (ledgerOf a steps).IsWindow a v := fun v hv => hsound.window hv
  have hfull := capacityOf_eq hw
  rw [run_append hslot] at ht ⊢
  subst ht
  rw [lengthOf_bind]
  refine ⟨?_, ?_, ?_, ?_⟩
  · rw [hsound.length_append hw]
    rfl
  · intro hdata
    rw [appended_of_ne_nil hfull hdata]
  · rintro rfl hempty
    rw [appended_nil_of_empty hfull hempty]
  · rintro rfl hpos
    cases hv : s.window h with
    | none => simp [hv, Slice.lengthOf] at hpos
    | some v =>
      rw [hv] at hpos hfull
      rw [appended_nil hfull hpos]
      exact ⟨v, rfl, hsound.marked (hw v hv) hpos⟩

/-- A buffer of two bytes with a clone and a kept window, the buffer closed, and another buffer. -/
def clonedRun : List Step :=
  [.acquire [97] 2 16, .put [97] 0 [1, 2], .clone [98] [97], .hold [97] [107], .close [97],
    .acquire [99] 2 16]

/-- A clone is marked through the one slot and seen through the other. -/
theorem append_exact_clonedRun :
    ∃ s t v, (runSteps .spread .empty clonedRun).1 = s ∧
      s.slots.get? [98] = some (some 1) ∧ ((Step.append [98] []).run .spread s).1 = t ∧
      0 < lengthOf (s.buffer? 1) ∧ s.window (some 1) = some v ∧ Marked s t v ∧
      ((Step.append [98] []).run .spread s).2 = .appended (viewBuffer t.memory (t.buffer? 1)) 2 ∧
      ((Step.append [98] [5]).run .spread s).1 = s := by
  have hslot : (runSteps .spread .empty clonedRun).1.slots.get? [98] = some (some 1) := by
    decide +kernel
  have hlength : lengthOf ((runSteps .spread .empty clonedRun).1.buffer? 1) = 2 := by
    decide +kernel
  have hpos : 0 < lengthOf ((runSteps .spread .empty clonedRun).1.buffer? 1) := by omega
  obtain ⟨hanswer, -, -, hmarked⟩ := append_exact .spread clonedRun [98] (some 1) [] rfl hslot rfl
  obtain ⟨-, hcopied, -, -⟩ := append_exact .spread clonedRun [98] (some 1) [5] rfl hslot rfl
  obtain ⟨v, hv, hm⟩ := hmarked rfl hpos
  refine ⟨_, _, v, rfl, hslot, rfl, hpos, hv, hm, ?_, hcopied (by simp)⟩
  rw [hanswer, Option.bind_some, Option.bind_some, hlength, List.length_nil]

end Buffer

end ArgLine
