import ArgLine.Sink
import ArgLine.Proofs.Text.Bytes

/-!
# ArgLine.Proofs.Files

Where a path leads, and what opening and appending keep of it.

* `Follows` has one rule for each kind of segment, and `Leads` says what stands where a path
  leads to.  `leads_iff_locate`: that is the place which the tree gives for the path.
* `Alike` trees differ in their files only.  Opening for appending and appending lead to trees that
  are alike, so what is no file stays where it is, under every path that leads to it.
-/

namespace ArgLine

namespace Files

/-! ## lookups -/

theorem lookup_place (nodes : List (Path × Node)) (p : Path) (n : Node) :
    (place nodes p n).lookup p = some n := by
  induction nodes with
  | nil => simp [place]
  | cons x nodes ih =>
    obtain ⟨q, m⟩ := x
    rw [place]
    split
    · next heq => simp [heq]
    · next hne =>
      have hbeq : (p == q) = false := beq_false_of_ne (Ne.symm hne)
      rw [List.lookup_cons, hbeq]
      exact ih

/-- Elsewhere everything stays as it was. -/
theorem lookup_place_of_ne (nodes : List (Path × Node)) {p q : Path} (h : q ≠ p) (n : Node) :
    (place nodes p n).lookup q = nodes.lookup q := by
  induction nodes with
  | nil => simp [place, h]
  | cons x nodes ih =>
    obtain ⟨r, m⟩ := x
    rw [place]
    split
    · next heq =>
      have hbeq : (q == r) = false := beq_false_of_ne (heq ▸ h)
      rw [List.lookup_cons, List.lookup_cons, hbeq]
    · rw [List.lookup_cons, List.lookup_cons, ih]

/-- What is put in place of something else leaves nothing of it. -/
theorem place_place (nodes : List (Path × Node)) (p : Path) (m n : Node) :
    place (place nodes p m) p n = place nodes p n := by
  induction nodes with
  | nil => simp [place]
  | cons x nodes ih =>
    obtain ⟨q, k⟩ := x
    by_cases heq : q = p
    · simp [place, heq]
    · simp [place, heq, ih]

theorem place_of_lookup {nodes : List (Path × Node)} {p : Path} {n : Node}
    (h : nodes.lookup p = some n) : place nodes p n = nodes := by
  induction nodes with
  | nil => simp at h
  | cons x nodes ih =>
    obtain ⟨q, m⟩ := x
    by_cases heq : q = p
    · subst heq
      simp only [List.lookup_cons_self, Option.some.injEq] at h
      simp [place, h]
    · have hbeq : (p == q) = false := beq_false_of_ne (Ne.symm heq)
      rw [List.lookup_cons, hbeq] at h
      simp [place, heq, ih h]

/-! ## following a path -/

/-- The segments of a path lead from one place to another. -/
inductive Follows (f : Files) : Path → List Bytes → Path → Prop where
  | here {p} : Follows f p [] p
  | stay {p q segment rest} (hp : f.node? p = some .directory)
      (hs : segment = [] ∨ segment = ascii ".") (h : Follows f p rest q) :
      Follows f p (segment :: rest) q
  | up {p q rest} (hp : f.node? p = some .directory)
      (hparent : f.node? p.dropLast = some .directory) (h : Follows f p.dropLast rest q) :
      Follows f p (ascii ".." :: rest) q
  | down {p q segment rest} (hp : f.node? p = some .directory)
      (hs : segment ≠ [] ∧ segment ≠ ascii "." ∧ segment ≠ ascii "..")
      (hlen : segment.length ≤ 255) (h : Follows f (f.enter (p ++ [segment])) rest q) :
      Follows f p (segment :: rest) q

/-- A path leads to a place where something stands: from the root if it starts with a slash, from
the working directory otherwise. -/
def Leads (f : Files) (path : Bytes) (n : Node) : Prop :=
  0 ∉ path ∧ path.length ≤ 4095 ∧
    ∃ p, Follows f (if path.head? = some 47 then [] else f.working) (Bytes.split 47 path) p ∧
      f.node? p = some n

section Follows

variable {f : Files} {p q : Path}

theorem Follows.append {xs ys : List Bytes} {m : Path} (h : Follows f p xs m)
    (h' : Follows f m ys q) : Follows f p (xs ++ ys) q := by
  induction h with
  | here => exact h'
  | stay hp hs _ ih => exact .stay hp hs (ih h')
  | up hp hparent _ ih => exact .up hp hparent (ih h')
  | down hp hs hlen _ ih => exact .down hp hs hlen (ih h')

/-- A path in two parts has a place between them. -/
theorem exists_of_follows_append {xs ys : List Bytes} (h : Follows f p (xs ++ ys) q) :
    ∃ m, Follows f p xs m ∧ Follows f m ys q := by
  induction xs generalizing p with
  | nil => exact ⟨p, .here, h⟩
  | cons segment rest ih =>
    cases h with
    | stay hp hs h =>
      obtain ⟨m, hm, hq⟩ := ih h
      exact ⟨m, .stay hp hs hm, hq⟩
    | up hp hparent h =>
      obtain ⟨m, hm, hq⟩ := ih h
      exact ⟨m, .up hp hparent hm, hq⟩
    | down hp hs hlen h =>
      obtain ⟨m, hm, hq⟩ := ih h
      exact ⟨m, .down hp hs hlen hm, hq⟩

/-- A walk that succeeds starts in a directory. -/
theorem node?_of_walk {segments : List Bytes} (h : f.walk p segments = .ok q) :
    f.node? p = some .directory := by
  cases segments <;> rw [walk] at h <;> split at h <;> first | assumption | contradiction

/-- The walk follows segments from directory to directory. -/
theorem walk_eq_ok_iff {segments : List Bytes} :
    f.walk p segments = .ok q ↔ Follows f p segments q ∧ f.node? q = some .directory := by
  constructor
  · intro h
    fun_induction walk f p segments with
    | case1 p hp =>
      obtain rfl := Except.ok.inj h
      exact ⟨.here, hp⟩
    | case4 p segment rest hp hs ih =>
      obtain ⟨hf, hq⟩ := ih h
      exact ⟨.stay hp hs hf, hq⟩
    | case5 p rest hp hs ih =>
      obtain ⟨hf, hq⟩ := ih h
      exact ⟨.up hp (node?_of_walk h) hf, hq⟩
    | case8 p segment rest hp hs hup hlen _ ih =>
      obtain ⟨hf, hq⟩ := ih h
      exact ⟨.down hp ⟨fun he => hs (.inl he), fun he => hs (.inr he), hup⟩
        (Nat.le_of_not_lt hlen) hf, hq⟩
    | _ => contradiction
  · rintro ⟨h, hq⟩
    induction h with
    | here => rw [walk, hq]
    | stay hp hs _ ih =>
      rw [walk, hp]
      simp only [if_pos hs, ih hq]
    | up hp hparent _ ih =>
      have hdots : ¬ (ascii ".." = [] ∨ ascii ".." = ascii ".") := by decide
      rw [walk, hp]
      simp only [if_neg hdots, if_true, ih hq]
    | @down p q segment rest hp hs hlen _ ih =>
      have hstay : ¬ (segment = [] ∨ segment = ascii ".") := not_or.2 ⟨hs.1, hs.2.1⟩
      have hlong : ¬ segment.length > maxSegment := Nat.not_lt.2 hlen
      have hthere := node?_of_walk (ih hq)
      rw [walk, hp]
      simp only [if_neg hstay, if_neg hs.2.2, if_neg hlong, hthere, ih hq]
      rfl

end Follows

/-! ## the place of a path -/

/-- A text that does not end with a separator has a last part, which is not empty. -/
theorem exists_split_concat {sep : UInt8} {text : Bytes} (hne : text ≠ [])
    (hend : text.getLast? ≠ some sep) :
    ∃ init last, Bytes.split sep text = init ++ [last] ∧ last ≠ [] := by
  by_cases hmem : sep ∈ text
  · obtain ⟨front, back, rfl, -⟩ := List.eq_append_cons_of_mem hmem
    cases back with
    | nil => simp at hend
    | cons b back =>
      have hback : (b :: back).getLast? ≠ some sep := by
        simpa [List.getLast?_append, List.getLast?_cons] using hend
      obtain ⟨init, last, hsplit, hlast⟩ := exists_split_concat (List.cons_ne_nil b back) hback
      refine ⟨Bytes.split sep front ++ init, last, ?_, hlast⟩
      rw [Bytes.split_append, hsplit, List.append_assoc]
  · exact ⟨[], text, Bytes.split_of_not_mem hmem, hne⟩
termination_by text.length

/-- The last part of a text is empty only if the text is, or ends with the separator. -/
theorem exists_split_concat_iff {sep : UInt8} {text : Bytes} :
    (∃ init last, Bytes.split sep text = init ++ [last] ∧ last ≠ []) ↔
      text ≠ [] ∧ text.getLast? ≠ some sep := by
  refine ⟨?_, fun h => exists_split_concat h.1 h.2⟩
  rintro ⟨init, last, hsplit, hlast⟩
  constructor
  · rintro rfl
    have hempty : [] ++ [[]] = init ++ [last] := hsplit
    exact hlast (List.cons.inj (List.append_inj' hempty rfl).2).1.symm
  · intro hend
    obtain ⟨front, rfl⟩ := List.getLast?_eq_some_iff.1 hend
    rw [Bytes.split_append] at hsplit
    exact hlast (List.cons.inj (List.append_inj' hsplit rfl).2).1.symm

/-- Only empty segments at the end of a path are left out. -/
theorem segments_eq {path last : Bytes} {init : List Bytes}
    (h : Bytes.split 47 path = init ++ [last]) (hlast : last ≠ []) :
    segments path = init ++ [last] := by
  simp [segments, h, hlast]

/-- A path that gives a place: its last segment is a name, and the others lead to a directory. -/
theorem locate_eq_ok_iff {f : Files} {path : Bytes} {p : Path} :
    f.locate path = .ok p ↔ 0 ∉ path ∧ path.length ≤ 4095 ∧
      ∃ init last parent, Bytes.split 47 path = init ++ [last] ∧
        (last ≠ [] ∧ last ≠ ascii "." ∧ last ≠ ascii "..") ∧ last.length ≤ 255 ∧
        f.walk (f.start path) init = .ok parent ∧ p = f.enter (parent ++ [last]) := by
  constructor
  · intro h
    have hzero : 0 ∉ path := fun hz => by simp [locate, hz] at h
    have hne : path ≠ [] := fun he => by simp [locate, he] at h
    have hlen : ¬ path.length > maxPath := fun hl => by simp [locate, hzero, hne, hl] at h
    cases hlast : (segments path).getLast? with
    | none => simp [locate, hzero, hne, hlen, hlast] at h
    | some last =>
      cases hwalk : f.walk (f.start path) (segments path).dropLast with
      | error e => simp [locate, hzero, hne, hlen, hlast, hwalk, bind, Except.bind] at h
      | ok parent =>
        simp only [locate, List.contains_iff_mem, hzero, hne, hlen, hlast, hwalk, bind, Except.bind,
          if_false] at h
        have hdots : ¬ (last = ascii "." ∨ last = ascii "..") := fun hd => by simp [hd] at h
        have hend : path.getLast? ≠ some 47 := fun he => by simp [hdots, he] at h
        have hshort : ¬ last.length > maxSegment := fun hs => by simp [hdots, hend, hs] at h
        obtain ⟨init, last', hsplit, hname⟩ := exists_split_concat hne hend
        rw [segments_eq hsplit hname] at hlast hwalk
        rw [List.dropLast_concat] at hwalk
        obtain rfl : last' = last := by simpa using hlast
        rw [if_neg hdots, if_neg hend, if_neg hshort] at h
        exact ⟨hzero, Nat.le_of_not_lt hlen, init, last', parent, hsplit, ⟨hname, not_or.1 hdots⟩,
          Nat.le_of_not_lt hshort, hwalk, (Except.ok.inj h).symm⟩
  · rintro ⟨hzero, hlen, init, last, parent, hsplit, hname, hshort, hwalk, rfl⟩
    obtain ⟨hne, hend⟩ := exists_split_concat_iff.1 ⟨init, last, hsplit, hname.1⟩
    have hlong : ¬ path.length > maxPath := Nat.not_lt.2 hlen
    have hlong' : ¬ last.length > maxSegment := Nat.not_lt.2 hshort
    simp [locate, hzero, hne, hlong, segments_eq hsplit hname.1, hwalk, hname.2, hend, hlong', bind,
      Except.bind]

/-- **A path leads to something that is no directory** exactly if that stands at the place which
the tree gives for it. -/
theorem leads_iff_locate {f : Files} {path : Bytes} {n : Node} (hn : n ≠ .directory) :
    f.Leads path n ↔ ∃ p, f.locate path = .ok p ∧ f.node? p = some n := by
  constructor
  · rintro ⟨hzero, hlen, p, hp, hnode⟩
    obtain ⟨init, last, hsplit⟩ : ∃ init last, Bytes.split 47 path = init ++ [last] :=
      ⟨_, _, (List.dropLast_concat_getLast (Bytes.split_ne_nil 47 path)).symm⟩
    rw [hsplit] at hp
    obtain ⟨m, hm, hlast⟩ := exists_of_follows_append hp
    have hdir : f.node? p ≠ some .directory := by
      rw [hnode]
      exact fun h => hn (Option.some.inj h)
    cases hlast with
    | stay hm' _ h =>
      cases h
      exact absurd hm' hdir
    | up _ hparent h =>
      cases h
      exact absurd hparent hdir
    | down hm' hname hshort h =>
      cases h
      exact ⟨_, locate_eq_ok_iff.2 ⟨hzero, hlen, _, _, m, hsplit, hname, hshort,
        walk_eq_ok_iff.2 ⟨hm, hm'⟩, rfl⟩, hnode⟩
  · rintro ⟨p, hp, hnode⟩
    obtain ⟨hzero, hlen, init, last, parent, hsplit, hname, hshort, hwalk, rfl⟩ :=
      locate_eq_ok_iff.1 hp
    obtain ⟨hinit, hparent⟩ := walk_eq_ok_iff.1 hwalk
    refine ⟨hzero, hlen, _, ?_, hnode⟩
    rw [hsplit]
    exact hinit.append (.down hparent hname hshort .here)

/-! ## appending -/

theorem append_of_file {f : Files} {p : Path} {content : Bytes}
    (h : f.node? p = some (.file content)) (text : Bytes) :
    f.append p text = f.set p (.file (content ++ text)) := by
  rw [append, h]

theorem append_nil (f : Files) (p : Path) : f.append p [] = f := by
  unfold append
  split
  · next content hnode =>
    rw [List.append_nil, set, place_of_lookup hnode]
  · rfl

/-- The files after a text was sent to a sink. -/
def receive (f : Files) (sink : Sink) (text : Bytes) : Files :=
  match sink with
  | .file p => f.append p text
  | _ => f

/-- Appending twice is appending the two texts at once. -/
theorem append_append (f : Files) (p : Path) (text text' : Bytes) :
    (f.append p text).append p text' = f.append p (text ++ text') := by
  cases hnode : f.node? p with
  | none => simp [append, hnode]
  | some n =>
    cases n with
    | file content =>
      have hset : (f.set p (.file (content ++ text))).node? p = some (.file (content ++ text)) :=
        lookup_place _ _ _
      rw [append_of_file hnode, append_of_file hset, append_of_file hnode, set, set, set,
        place_place, List.append_assoc]
    | _ => simp [append, hnode]

theorem receive_nil (f : Files) (sink : Sink) : f.receive sink [] = f := by
  cases sink <;> simp [receive, append_nil]

theorem receive_receive (f : Files) (sink : Sink) (text text' : Bytes) :
    (f.receive sink text).receive sink text' = f.receive sink (text ++ text') := by
  cases sink <;> simp [receive, append_append]

/-! ## what stays -/

/-- Trees that differ in their files only. -/
structure Alike (f g : Files) : Prop where
  working_eq : f.working = g.working
  node?_iff : ∀ p n, (∀ content, n ≠ .file content) → (f.node? p = some n ↔ g.node? p = some n)

namespace Alike

variable {f g k : Files}

theorem refl (f : Files) : Alike f f := ⟨rfl, fun _ _ _ => Iff.rfl⟩

theorem symm (h : Alike f g) : Alike g f :=
  ⟨h.working_eq.symm, fun p n hn => (h.node?_iff p n hn).symm⟩

theorem trans (h : Alike f g) (h' : Alike g k) : Alike f k :=
  ⟨h.working_eq.trans h'.working_eq, fun p n hn => (h.node?_iff p n hn).trans (h'.node?_iff p n hn)⟩

/-- A file may be put where a file is, or nothing. -/
theorem set {p : Path} (h : ∀ n, f.node? p = some n → ∃ content, n = .file content)
    (content : Bytes) : Alike f (f.set p (.file content)) := by
  refine ⟨rfl, fun q n hn => ?_⟩
  by_cases hq : q = p
  · subst hq
    have hset : (f.set q (.file content)).node? q = some (.file content) := lookup_place _ _ _
    rw [hset]
    constructor
    · intro hnode
      obtain ⟨old, rfl⟩ := h n hnode
      exact absurd rfl (hn old)
    · intro heq
      exact absurd (Option.some.inj heq).symm (hn content)
  · have hset : (f.set p (.file content)).node? q = f.node? q := lookup_place_of_ne _ hq _
    rw [hset]

theorem append (f : Files) (p : Path) (text : Bytes) : Alike f (f.append p text) := by
  cases hnode : f.node? p with
  | none => simpa [Files.append, hnode] using refl f
  | some n =>
    cases n with
    | file content =>
      rw [append_of_file hnode]
      refine set (fun m hm => ⟨content, ?_⟩) _
      exact Option.some.inj (hm.symm.trans hnode)
    | _ => simpa [Files.append, hnode] using refl f

theorem receive (f : Files) (sink : Sink) (text : Bytes) : Alike f (f.receive sink text) := by
  cases sink with
  | file p => exact append f p text
  | _ => exact refl f

/-- Links lead to the same places. -/
theorem enter_eq (h : Alike f g) (p : Path) : f.enter p = g.enter p := by
  have hlink (target : Path) : f.node? p = some (.link target) ↔ g.node? p = some (.link target) :=
    h.node?_iff p _ (by simp)
  unfold enter
  split
  · next target hf => rw [(hlink target).1 hf]
  · next hf =>
    split
    · next target hg => exact absurd ((hlink target).2 hg) (hf target)
    · rfl

/-- A path is followed through directories and links, so files have no say in where it leads. -/
theorem follows (h : Alike f g) {p q : Path} {segments : List Bytes}
    (hf : Follows f p segments q) : Follows g p segments q := by
  have hdir (p : Path) (hp : f.node? p = some .directory) : g.node? p = some .directory :=
    (h.node?_iff p .directory (by simp)).1 hp
  induction hf with
  | here => exact .here
  | stay hp hs _ ih => exact .stay (hdir _ hp) hs ih
  | up hp hparent _ ih => exact .up (hdir _ hp) (hdir _ hparent) ih
  | down hp hs hlen _ ih => exact .down (hdir _ hp) hs hlen (h.enter_eq _ ▸ ih)

/-- What is no file stands under every path that led to it. -/
theorem leads {path : Bytes} {n : Node} (h : Alike f g) (hn : ∀ content, n ≠ .file content)
    (hf : f.Leads path n) : g.Leads path n := by
  obtain ⟨hzero, hlen, p, hp, hnode⟩ := hf
  rw [h.working_eq] at hp
  exact ⟨hzero, hlen, p, h.follows hp, (h.node?_iff p n hn).1 hnode⟩

/-- What is no file stands under the same paths in trees that are alike. -/
theorem leads_iff {path : Bytes} {n : Node} (h : Alike f g) (hn : ∀ content, n ≠ .file content) :
    f.Leads path n ↔ g.Leads path n :=
  ⟨h.leads hn, h.symm.leads hn⟩

end Alike

/-- Opening finds the place of a path, and puts an empty file there if nothing is. -/
theorem openAppend_eq_ok {f g : Files} {path : Bytes} {p : Path}
    (h : f.openAppend path = .ok (g, p)) :
    f.locate path = .ok p ∧ f.node? p ≠ some .directory ∧
      g = if f.node? p = none then f.set p (.file []) else f := by
  cases hp : f.locate path with
  | error e => simp [openAppend, hp, bind, Except.bind] at h
  | ok q =>
    simp only [openAppend, hp, bind, Except.bind] at h
    split at h
    · contradiction
    · next n hdir hnode =>
      obtain ⟨rfl, rfl⟩ := Prod.mk.inj (Except.ok.inj h)
      exact ⟨rfl, by simpa [hnode] using hdir, by simp [hnode]⟩
    · next hnode =>
      obtain ⟨rfl, rfl⟩ := Prod.mk.inj (Except.ok.inj h)
      exact ⟨rfl, by simp [hnode], by simp [hnode]⟩

/-- Opening adds at most an empty file. -/
theorem alike_openAppend {f g : Files} {path : Bytes} {p : Path}
    (h : f.openAppend path = .ok (g, p)) : Alike f g := by
  obtain ⟨-, -, rfl⟩ := openAppend_eq_ok h
  split
  · next hnone => exact .set (fun n hn => by simp [hnone] at hn) []
  · exact .refl f

/-- Opening an address changes files only. -/
theorem alike_openAddress {f g : Files} {address : Bytes} {sink : Sink}
    (h : Sink.openAddress f address = .ok (g, sink)) : Alike f g := by
  cases hp : Sink.pathOf address with
  | error e => simp [Sink.openAddress, hp, bind, Except.bind] at h
  | ok path =>
    simp only [Sink.openAddress, hp, bind, Except.bind, Sink.openPath] at h
    split at h
    · obtain ⟨rfl, -⟩ := Prod.mk.inj (Except.ok.inj h)
      exact .refl f
    split at h
    · obtain ⟨rfl, -⟩ := Prod.mk.inj (Except.ok.inj h)
      exact .refl f
    split at h
    · next hopen =>
      obtain ⟨rfl, -⟩ := Prod.mk.inj (Except.ok.inj h)
      exact alike_openAppend hopen
    · contradiction

/-- Opening a path gives standard output exactly if that is its name or stands where it leads. -/
theorem openPath_stdout_iff {f : Files} {path : Bytes} :
    (∃ g name, Sink.openPath f path = .ok (g, .stdout name)) ↔
      path = ascii "stdout" ∨ path ≠ ascii "stderr" ∧ f.Leads path .stdout := by
  rw [leads_iff_locate (by simp)]
  constructor
  · rintro ⟨g, name, h⟩
    unfold Sink.openPath at h
    split at h
    · next hname => exact .inl hname
    split at h
    · simp at h
    rename_i hstderr
    split at h
    · next opened p hopen =>
      obtain ⟨rfl, hsink⟩ := Prod.mk.inj (Except.ok.inj h)
      have hnode : opened.node? p = some .stdout := by
        unfold Sink.atPlace at hsink
        split at hsink
        · assumption
        · contradiction
        · contradiction
      have hbefore := ((alike_openAppend hopen).node?_iff p .stdout (by simp)).2 hnode
      exact .inr ⟨hstderr, p, (openAppend_eq_ok hopen).1, hbefore⟩
    · contradiction
  · rintro (rfl | ⟨hstderr, p, hp, hnode⟩)
    · exact ⟨f, Sink.stdoutName, if_pos rfl⟩
    · by_cases hname : path = ascii "stdout"
      · exact ⟨f, Sink.stdoutName, if_pos hname⟩
      · have hopen : f.openAppend path = .ok (f, p) := by
          simp [openAppend, hp, hnode, bind, Except.bind]
        refine ⟨f, path, ?_⟩
        simp [Sink.openPath, hname, hstderr, hopen, Sink.atPlace, hnode]

end Files

end ArgLine
