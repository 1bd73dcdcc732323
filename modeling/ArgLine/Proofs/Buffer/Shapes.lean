import ArgLine.Proofs.Buffer.Ledger

/-!
# ArgLine.Proofs.Buffer.Shapes

The two shapes of a buffer.

At every moment of every run a buffer is open or closed: it either has its
allocation, its window and an aligned address, or none of the three.  All that can
be asked of a buffer follows from its shape.  A closed buffer is never opened again,
and the alignment stays the one that was asked for.
-/

namespace ArgLine

namespace Buffer

/-- The shape of an open buffer whose window starts `off` bytes into the `i`-th allocation, made
for `r`. -/
structure IsOpen (m : Memory) (r : Request) (i off : Nat) (b : Buffer) : Prop where
  raw_eq : b.raw = some ⟨i, 0, r.bytes + r.boundary, r.bytes + r.boundary⟩
  /-- The window is there even if it has no bytes. -/
  window_eq : b.window = some ⟨i, off, r.bytes, r.bytes⟩
  off_lt : off < r.boundary
  addr_eq : ∃ k, m.blocks[i]? = some k ∧ k.bytes.length = r.bytes + r.boundary ∧
    b.addr.toNat = k.base.toNat + off
  addr_ne_zero : b.addr ≠ 0
  dvd_addr : r.boundary ∣ b.addr.toNat

structure IsClosed (b : Buffer) : Prop where
  raw_eq : b.raw = none
  window_eq : b.window = none
  addr_eq : b.addr = 0

/-- What holds of a buffer that was cut out of the `i`-th allocation, made for `r`. -/
structure Shaped (m : Memory) (i : Nat) (r : Request) (b : Buffer) : Prop where
  open_or_closed : (∃ off, IsOpen m r i off b) ∨ IsClosed b
  not_both : ¬ ((∃ off, IsOpen m r i off b) ∧ IsClosed b)
  isClosed_iff : b.isClosed = true ↔ IsClosed b
  address_eq_zero_iff : b.address = 0 ↔ b.isClosed = true
  window_eq_none_iff : b.window = none ↔ b.isClosed = true
  length_eq : b.length = if b.isClosed then 0 else r.bytes
  align_eq : b.align = r.align
  align_pow : ∃ k ≤ 62, r.align.toInt = 2 ^ k
  size_nonneg : 0 ≤ r.size.toInt

/-! ## one moment -/

theorem isClosed_close (b : Buffer) : IsClosed b.close := ⟨rfl, rfl, rfl⟩

/-- No buffer is open and closed at once. -/
theorem IsOpen.not_isClosed {m : Memory} {r : Request} {i off : Nat} {b : Buffer}
    (h : IsOpen m r i off b) : ¬ IsClosed b := by
  intro hc
  have := h.raw_eq.symm.trans hc.raw_eq
  contradiction

/-- The buffer cut out of an allocation that lies within the address space is open. -/
theorem isOpen_buffer {m : Memory} {r : Request} (hr : r.Granted) {i : Nat} {base : UInt64}
    {content : Bytes} (hm : m.blocks[i]? = some ⟨base, content⟩)
    (hcontent : content.length = r.total) (hne : base ≠ 0)
    (hend : base.toNat + r.total ≤ 2 ^ 64) :
    IsOpen m r i (r.offset base) (r.buffer i base) where
  raw_eq := rfl
  window_eq := rfl
  off_lt := hr.offset_lt base
  addr_eq := ⟨_, hm, hcontent, hr.addr_eq i hend⟩
  addr_ne_zero := hr.addr_ne_zero i hne hend
  dvd_addr := hr.dvd_addr i hend

/-- **In a sound store every buffer has a shape.** -/
theorem Sound.shaped {a : Allocator} (ha : a.Valid) {s : Store} {l : Ledger} (hs : Sound a s l)
    {h : Handle} {b : Buffer} (hb : s.buffer? h = some b) :
    ∃ i r, l.Origin h i r ∧ Shaped s.memory i r b := by
  have hlt : h < s.buffers.length := (List.getElem?_eq_some_iff.1 hb).1
  rw [hs.length_buffers] at hlt
  have howner := List.getElem?_eq_getElem hlt
  obtain ⟨r, b', hr, hb', hshape⟩ := hs.buffer h l.owners[h] howner
  have hbb : b' = b := Option.some.inj (hb'.symm.trans hb)
  subst hbb
  have hgranted := hs.granted _ r hr
  obtain ⟨hpow, hsize, -⟩ := Request.granted_iff.1 hgranted
  obtain ⟨content, hblock, hpad⟩ := hs.block _ r hr
  obtain ⟨hne, hend⟩ := ha l.owners[h] r.total hgranted.total_lt
  refine ⟨l.owners[h], r, ⟨howner, hr⟩, ?_⟩
  have hopen := isOpen_buffer hgranted hblock hpad.length_eq hne hend
  rcases hshape with rfl | rfl
  · have hfalse : (r.buffer l.owners[h] (a l.owners[h] r.total)).isClosed ≠ true := nofun
    have hwindow : (r.buffer l.owners[h] (a l.owners[h] r.total)).window ≠ none := nofun
    exact
      { open_or_closed := Or.inl ⟨_, hopen⟩
        not_both := fun hboth => hopen.not_isClosed hboth.2
        isClosed_iff := iff_of_false hfalse hopen.not_isClosed
        address_eq_zero_iff := iff_of_false hopen.addr_ne_zero hfalse
        window_eq_none_iff := iff_of_false hwindow hfalse
        length_eq := rfl
        align_eq := rfl
        align_pow := hpow
        size_nonneg := hsize }
  · have hclosed := isClosed_close (r.buffer l.owners[h] (a l.owners[h] r.total))
    exact
      { open_or_closed := Or.inr hclosed
        not_both := fun ⟨⟨_, ho⟩, hc⟩ => ho.not_isClosed hc
        isClosed_iff := ⟨fun _ => hclosed, fun _ => rfl⟩
        address_eq_zero_iff := ⟨fun _ => rfl, fun _ => rfl⟩
        window_eq_none_iff := ⟨fun _ => rfl, fun _ => rfl⟩
        length_eq := rfl
        align_eq := rfl
        align_pow := hpow
        size_nonneg := hsize }

/-! ## from one moment to the next -/

/-- An action that does not close a buffer leaves it as it is. -/
theorem buffer?_apply (a : Allocator) {s : Store} {h : Handle} {b : Buffer}
    (hb : s.buffer? h = some b) {x : Action} (hx : x ≠ .close h) :
    (x.apply a s).buffer? h = some b := by
  have hlt : h < s.buffers.length := (List.getElem?_eq_some_iff.1 hb).1
  cases x with
  | acquire r =>
    by_cases hr : r.Granted
    · rw [apply_acquire hr]
      exact (List.getElem?_append_left hlt).trans hb
    · obtain ⟨e, he⟩ := Option.ne_none_iff_exists'.1 hr
      rw [Action.apply, store_acquire_of_refusal he]
      exact hb
  | copy h' =>
    cases hcopy : s.buffer? h' with
    | none =>
      rw [Action.apply, hcopy]
      exact hb
    | some b' =>
      rw [Action.apply, hcopy]
      exact (List.getElem?_append_left hlt).trans hb
  | close h' =>
    have hne : h' ≠ h := fun he => hx (congrArg Action.close he)
    rw [Action.apply, buffer?_close, hb, Option.map_some, if_neg hne]
  | store block place data => exact hb
  | name slot h' => exact hb
  | keep n w => exact hb

/-- An action leaves a buffer as it is or closes it. -/
theorem apply_buffer? (a : Allocator) {s : Store} {h : Handle} {b : Buffer}
    (hb : s.buffer? h = some b) (x : Action) :
    (x.apply a s).buffer? h = some b ∨ (x.apply a s).buffer? h = some b.close := by
  by_cases hx : x = .close h
  · right
    rw [hx, Action.apply, buffer?_close, hb, Option.map_some, if_pos rfl]
  · exact Or.inl (buffer?_apply a hb hx)

/-- Actions leave a buffer as it is or close it. -/
theorem replay_buffer? (a : Allocator) {s : Store} {h : Handle} {b : Buffer}
    (hb : s.buffer? h = some b) (xs : List Action) :
    (replay a s xs).buffer? h = some b ∨ (replay a s xs).buffer? h = some b.close := by
  induction xs generalizing s b with
  | nil => exact Or.inl hb
  | cons x xs ih =>
    rcases apply_buffer? a hb x with hsame | hclosed
    · exact ih hsame
    · exact Or.inr ((ih hclosed).elim id id)

/-! ## whole runs -/

/-- What was asked for in a run from nothing. -/
def ledgerOf (a : Allocator) (steps : List Step) : Ledger :=
  Ledger.empty.afterAll (trace a .empty steps)

/-- **Where a run leads the store is sound.** -/
theorem sound_runSteps (a : Allocator) (steps : List Step) :
    Sound a (runSteps a .empty steps).1 (ledgerOf a steps) := by
  rw [runSteps_eq_replay]
  exact (sound_empty a).replay (trace_legal (sound_empty a) steps)

/-- An acquisition that is not refused puts its own request on record for the buffer it names. -/
theorem origin_acquire (a : Allocator) (steps : List Step) {size align : Int64}
    (hr : refusal? size align = none) (slot : Bytes) :
    ∃ h i, (runSteps a .empty (steps ++ [.acquire slot size align])).1.slots.get? slot =
        some (some h) ∧
      (ledgerOf a (steps ++ [.acquire slot size align])).Origin h i ⟨size, align⟩ := by
  have hsound := sound_runSteps a steps
  have htrace : trace a .empty (steps ++ [.acquire slot size align]) = trace a .empty steps ++
      [.acquire ⟨size, align⟩,
        .name slot (some (runSteps a .empty steps).1.buffers.length)] := by
    rw [trace_append, trace, trace, List.append_nil, Step.actions, hr]
  refine ⟨(runSteps a .empty steps).1.buffers.length, (ledgerOf a steps).requests.length, ?_, ?_⟩
  · rw [runSteps_eq_replay, htrace, replay_append]
    exact Bindings.get?_set_self ..
  · rw [ledgerOf, htrace, Ledger.afterAll_append, hsound.length_buffers]
    exact ⟨List.getElem?_concat_length, List.getElem?_concat_length⟩

/-- **Every buffer is open or closed, at every moment of every run.**  Between two steps a run is at
a moment; inside a scope it is at more of them.  A buffer keeps the request it was acquired by, and
once closed it stays closed. -/
theorem buffers_shaped (a : Allocator) (ha : a.Valid) (steps : List Step) :
    (∀ xs ys, steps = xs ++ ys → ∃ n, moment a steps n = (runSteps a .empty xs).1) ∧
    (∀ slot size align, refusal? size align = none →
      ∃ h i, (runSteps a .empty (steps ++ [.acquire slot size align])).1.slots.get? slot =
          some (some h) ∧
        (ledgerOf a (steps ++ [.acquire slot size align])).Origin h i ⟨size, align⟩) ∧
    ∀ n h b, (moment a steps n).buffer? h = some b →
      ∃ i r, (ledgerAt a steps n).Origin h i r ∧ Shaped (moment a steps n).memory i r b ∧
        ∀ m ≥ n, ∃ b', (moment a steps m).buffer? h = some b' ∧
          (ledgerAt a steps m).Origin h i r ∧ Shaped (moment a steps m).memory i r b' ∧
          b'.align = b.align ∧ (IsClosed b → IsClosed b') := by
  refine ⟨?_, fun slot size align hr => origin_acquire a steps hr slot, ?_⟩
  · rintro xs ys rfl
    exact ⟨_, moment_of_append a xs ys⟩
  · intro n h b hb
    obtain ⟨i, r, horigin, hshaped⟩ := (sound_moment a steps n).shaped ha hb
    refine ⟨i, r, horigin, hshaped, ?_⟩
    intro m hm
    obtain ⟨xs, hstore, hledger⟩ := exists_later a steps hm
    have horigin' : (ledgerAt a steps m).Origin h i r := hledger ▸ horigin.afterAll xs
    have hkept := replay_buffer? a hb xs
    rw [← hstore] at hkept
    -- the origin at the later moment is the one on record, so both shapes speak of one request
    have hshape : ∀ b', (moment a steps m).buffer? h = some b' →
        Shaped (moment a steps m).memory i r b' := by
      intro b' hb'
      obtain ⟨i', r', ho, hsh⟩ := (sound_moment a steps m).shaped ha hb'
      have hi : i' = i := Option.some.inj (ho.1.symm.trans horigin'.1)
      subst hi
      have hreq : r' = r := Option.some.inj (ho.2.symm.trans horigin'.2)
      subst hreq
      exact hsh
    rcases hkept with hsame | hclosed
    · exact ⟨b, hsame, horigin', hshape b hsame, rfl, id⟩
    · exact ⟨b.close, hclosed, horigin', hshape _ hclosed, rfl, fun _ => isClosed_close b⟩

/-- Spread allocations lie within the address space. -/
theorem spread_valid : Allocator.spread.Valid := by
  intro i n hn
  have hmod : i % 2 ^ 16 < 2 ^ 16 := Nat.mod_lt i (by decide)
  have hsize64 : UInt64.size = 2 ^ 64 := rfl
  have hval : (Allocator.spread i n).toNat = 2 ^ 47 * (i % 2 ^ 16 + 1) + 8 :=
    UInt64.toNat_ofNat_of_lt (by omega)
  constructor
  · intro hzero
    rw [hzero] at hval
    have : (0 : UInt64).toNat = 0 := rfl
    omega
  · omega

/-- A buffer with an empty window, a copy of it that outlives it, and a scope in a scope whose body
aborts. -/
def sampleRun : List Step :=
  [.acquire [97] 0 8, .clone [98] [97], .close [97],
    .scope (.nest ⟨4, 16, some [107], 0, [1, 2]⟩ (.leaf ⟨1, 1, none, 5, [3]⟩ .finish))]

/-- A buffer that was closed at the fifth step, at all later ones. -/
theorem buffers_shaped_sampleRun :
    Allocator.spread.Valid ∧
    ∃ b, (moment .spread sampleRun 5).buffer? 0 = some b ∧ IsClosed b ∧
      ∃ i r, (ledgerAt .spread sampleRun 5).Origin 0 i r ∧
        Shaped (moment .spread sampleRun 5).memory i r b ∧
        ∀ m ≥ 5, ∃ b', (moment .spread sampleRun m).buffer? 0 = some b' ∧
          (ledgerAt .spread sampleRun m).Origin 0 i r ∧
          Shaped (moment .spread sampleRun m).memory i r b' ∧
          b'.align = b.align ∧ (IsClosed b → IsClosed b') := by
  have hb : (moment .spread sampleRun 5).buffer? 0 = some ⟨none, none, 0, 8⟩ := by decide +kernel
  exact ⟨spread_valid, _, hb, ⟨rfl, rfl, rfl⟩,
    (buffers_shaped .spread spread_valid sampleRun).2.2 5 0 _ hb⟩

end Buffer

end ArgLine
