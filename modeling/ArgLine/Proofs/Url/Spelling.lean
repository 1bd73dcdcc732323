import ArgLine.Sink
import ArgLine.Proofs.Text.Bytes

/-!
# ArgLine.Proofs.Url.Spelling

The many ways to write one path as an output address.

* `decode_eq_ok_iff`: a text is decoded to a plain one exactly if it spells it, with
  an escape in place of any byte.
* `pathOf_eq_ok_iff`: a word without special bytes is the path of an address exactly if
  the address is a spelling of it, with an empty query and an empty fragment added
  at will.
-/

namespace ArgLine

namespace Percent

/-- The text spells the plain one: every byte stands for itself, or is written as `%` and two
digits. -/
inductive Spells : Bytes → Bytes → Prop where
  | nil : Spells [] []
  | byte {b : UInt8} {text plain : Bytes} (hb : b ≠ 37) (h : Spells text plain) :
      Spells (b :: text) (b :: plain)
  | escape {c d : UInt8} {x y : Nat} {text plain : Bytes} (hc : Hexadecimal.digit? c = some x)
      (hd : Hexadecimal.digit? d = some y) (h : Spells text plain) :
      Spells (37 :: c :: d :: text) ((16 * x + y).toUInt8 :: plain)

theorem decode_cons_of_ne {b : UInt8} (hb : b ≠ 37) (rest : Bytes) :
    decode (b :: rest) = (decode rest).map (b :: ·) := by
  rw [decode.eq_def]
  exact if_neg hb

theorem decode_of_spells {text plain : Bytes} (h : Spells text plain) :
    decode text = .ok plain := by
  induction h with
  | nil => rfl
  | byte hb h ih => rw [decode_cons_of_ne hb, ih]; rfl
  | escape hc hd h ih => rw [decode, if_pos rfl, hc, hd, ih]; rfl

theorem map_eq_ok {ε α β : Type} {r : Except ε α} {f : α → β} {y : β} (h : r.map f = .ok y) :
    ∃ x, r = .ok x ∧ f x = y := by
  cases r with
  | error e => contradiction
  | ok x => exact ⟨x, rfl, Except.ok.inj h⟩

theorem spells_of_decode {text plain : Bytes} (h : decode text = .ok plain) :
    Spells text plain := by
  fun_induction decode text generalizing plain with
  | case1 =>
    have : [] = plain := Except.ok.inj h
    subst this
    exact .nil
  | case2 c d more x y hd hc ih =>
    obtain ⟨tail, htail, rfl⟩ := map_eq_ok h
    exact .escape hc hd (ih htail)
  | case3 => contradiction
  | case4 => contradiction
  | case5 b rest hb ih =>
    obtain ⟨tail, htail, rfl⟩ := map_eq_ok h
    exact .byte hb (ih htail)

/-- **Decoding undoes spelling**, and succeeds on nothing else. -/
theorem decode_eq_ok_iff {text plain : Bytes} : decode text = .ok plain ↔ Spells text plain :=
  ⟨spells_of_decode, decode_of_spells⟩

/-- A spelling holds nothing but escapes and bytes of what it spells. -/
theorem Spells.mem {text plain : Bytes} (h : Spells text plain) {b : UInt8} (hb : b ∈ text) :
    b = 37 ∨ (Hexadecimal.digit? b).isSome ∨ b ∈ plain := by
  induction h with
  | nil => contradiction
  | byte hne h ih =>
    rw [List.mem_cons] at hb
    cases hb with
    | inl he => exact Or.inr (Or.inr (he ▸ List.mem_cons_self))
    | inr ht => exact (ih ht).imp_right fun h => h.imp_right (List.mem_cons_of_mem _)
  | escape hc hd h ih =>
    simp only [List.mem_cons] at hb
    rcases hb with rfl | rfl | rfl | ht
    · exact Or.inl rfl
    · exact Or.inr (Or.inl (by rw [hc]; rfl))
    · exact Or.inr (Or.inl (by rw [hd]; rfl))
    · exact (ih ht).imp_right fun h => h.imp_right (List.mem_cons_of_mem _)

/-- A spelling that starts with another byte than `%` spells a text that starts with it too. -/
theorem Spells.head {b : UInt8} {text plain : Bytes} (h : Spells (b :: text) plain)
    (hb : b ≠ 37) : plain.head? = some b := by
  cases h with
  | byte _ _ => rfl
  | escape _ _ _ => exact absurd rfl hb

theorem Spells.ne_nil {text plain : Bytes} (h : Spells text plain) (hne : plain ≠ []) :
    text ≠ [] := by
  rintro rfl
  cases h
  exact hne rfl

end Percent

namespace Url

open Percent

/-- A word: letters only, and at least one. -/
def IsWord (word : Bytes) : Prop := word ≠ [] ∧ ∀ b ∈ word, isLetter b = true

/-- The address writes a word, with an empty query and an empty fragment added at will. -/
def Writes (word address : Bytes) : Prop :=
  ∃ name query fragment, Spells name word ∧ (query = [] ∨ query = ascii "?") ∧
    (fragment = [] ∨ fragment = ascii "#") ∧ address = name ++ query ++ fragment

/-! ## what is read as a word writes it -/

/-- A path that is taken is a spelling, and the query stays. -/
theorem withPath_eq_ok {u u' : Url} {text : Bytes} (h : u.withPath text = .ok u') :
    Spells text u'.path ∧ u'.query = u.query := by
  cases hd : decode text with
  | error bad => simp [withPath, decodePart, hd, bind, Except.bind] at h
  | ok plain =>
    have hu : { u with pathText := text, path := plain } = u' := by
      simpa [withPath, decodePart, hd, bind, Except.bind, pure, Except.pure] using h
    rw [← hu]
    exact ⟨decode_eq_ok_iff.1 hd, rfl⟩

/-- A path that starts with a slash is no word. -/
theorem IsWord.not_spells_slash {word text : Bytes} (hw : IsWord word) :
    ¬ Spells (47 :: text) word := by
  intro h
  have hhead := h.head (by decide)
  have hletter := hw.2 47 (List.mem_of_head? hhead)
  exact absurd hletter (by decide)

/-- If the path is a word, it was written without a scheme and without an authority. -/
theorem readRest_eq_ok {scheme rest word : Bytes} {query : Option Bytes} {u : Url}
    (h : readRest { blank with scheme := scheme, query := query } rest = .ok u)
    (hpath : u.path = word) (hw : IsWord word) :
    scheme = [] ∧ Spells rest word ∧ u.query = query := by
  unfold readRest at h
  split at h
  · next more =>
    exfalso
    split at h
    · have hspells := (withPath_eq_ok h).1
      rw [hpath] at hspells
      exact hw.not_spells_slash hspells
    · cases hauth : readAuthority (Bytes.cut 47 more).1 with
      | error e => simp [hauth, bind, Except.bind] at h
      | ok parts =>
        simp only [hauth, bind, Except.bind] at h
        have hspells := (withPath_eq_ok h).1
        rw [hpath] at hspells
        -- what follows the authority is empty or starts with a slash
        cases hrest : more.dropWhile (· ≠ 47) with
        | nil =>
          rw [hrest] at hspells
          cases hspells
          exact hw.1 rfl
        | cons b tail =>
          have hb : b = 47 := by
            have := List.head?_dropWhile_not (· ≠ 47) more
            rw [hrest] at this
            simpa using this
          rw [hrest, hb] at hspells
          exact hw.not_spells_slash hspells
  · exfalso
    have hspells := (withPath_eq_ok h).1
    rw [hpath] at hspells
    exact hw.not_spells_slash hspells
  · split at h
    · have hu := Except.ok.inj h
      rw [← hu] at hpath
      exact absurd hpath.symm hw.1
    · next hscheme =>
      split at h
      · contradiction
      · obtain ⟨hspells, hquery⟩ := withPath_eq_ok h
        rw [hpath] at hspells
        exact ⟨Decidable.not_not.1 hscheme, hspells, hquery⟩

/-- Without a scheme all of the text is left. -/
theorem takeScheme_eq_nil {text rest : Bytes} (h : takeScheme text = .ok ([], rest)) :
    rest = text := by
  unfold takeScheme at h
  split at h
  · contradiction
  · next b tail _ =>
    split at h
    · next hletter =>
      split at h
      · have hpair := Except.ok.inj h
        have hin : inScheme b = true := by simp [inScheme, hletter]
        simp [hin] at hpair
      · simpa using h.symm
    · simpa using h.symm
  · simpa using h.symm

/-- A text read as a word is a spelling of it, perhaps with a query. -/
theorem readWhole_eq_ok {text word : Bytes} {u : Url} (h : readWhole text = .ok u)
    (hpath : u.path = word) (hw : IsWord word) :
    ∃ name, Spells name word ∧ text = name ++ u.query.elim [] (63 :: ·) := by
  unfold readWhole at h
  split at h
  · contradiction
  · split at h
    · next hstar =>
      have hu := Except.ok.inj h
      rw [← hu] at hpath
      have hmem : (42 : UInt8) ∈ word := by rw [← hpath, hstar]; decide
      exact absurd (hw.2 42 hmem) (by decide)
    · cases hs : takeScheme text with
      | error e => simp [hs, bind, Except.bind] at h
      | ok parts =>
        obtain ⟨scheme, rest⟩ := parts
        simp only [hs, bind, Except.bind] at h
        obtain ⟨hscheme, hspells, hquery⟩ := readRest_eq_ok h hpath hw
        subst hscheme
        have hrest := takeScheme_eq_nil hs
        subst hrest
        refine ⟨_, hspells, ?_⟩
        rw [hquery]
        exact (Bytes.append_cut 63 rest).symm

/-- The parts of a text that was read: without its fragment it was read too. -/
theorem parse_eq_ok {text : Bytes} {u : Url} (h : parse text = .ok u) :
    ∃ u', readWhole (Bytes.cut 35 text).1 = .ok u' ∧ u.path = u'.path ∧ u.query = u'.query ∧
      (u.fragment = [] → (Bytes.cut 35 text).2 = none ∨ (Bytes.cut 35 text).2 = some []) := by
  unfold parse at h
  cases hr : readWhole (Bytes.cut 35 text).1 with
  | error e => simp [hr] at h
  | ok u' =>
    simp only [hr] at h
    refine ⟨u', rfl, ?_⟩
    cases hf : (Bytes.cut 35 text).2 with
    | none =>
      simp only [hf] at h
      rw [Except.ok.inj h]
      exact ⟨rfl, rfl, fun _ => Or.inl rfl⟩
    | some fragment =>
      simp only [hf] at h
      cases hd : decodePart fragment with
      | error e => simp [hd] at h
      | ok plain =>
        simp only [hd] at h
        have hu := Except.ok.inj h
        rw [← hu]
        exact ⟨rfl, rfl, fun hempty => Or.inr (congrArg some hempty)⟩

/-- Nothing too much means no fragment and no query. -/
theorem excess?_eq_none {u : Url} (h : Sink.excess? u = none) :
    u.fragment = [] ∧ u.query.getD [] = [] := by
  unfold Sink.excess? at h
  split at h
  · contradiction
  · split at h
    · contradiction
    · next hfragment =>
      split at h
      · contradiction
      · next hquery => exact ⟨Decidable.not_not.1 hfragment, Decidable.not_not.1 hquery⟩

/-- An address whose path is a word writes it. -/
theorem writes_of_pathOf {word address : Bytes} (hw : IsWord word)
    (h : Sink.pathOf address = .ok word) : Writes word address := by
  unfold Sink.pathOf at h
  split at h
  · next hhead =>
    have heq : address = word := Except.ok.inj h
    have hletter := hw.2 47 (heq ▸ List.mem_of_head? hhead)
    exact absurd hletter (by decide)
  · cases hp : parse address with
    | error e => simp [hp] at h
    | ok u =>
      simp only [hp] at h
      split at h
      · contradiction
      · split at h
        · contradiction
        · next hexcess =>
          have hpath : u.path = word := Except.ok.inj h
          obtain ⟨u', hu', hpath', hquery', hfragment⟩ := parse_eq_ok hp
          obtain ⟨name, hspells, hbody⟩ := readWhole_eq_ok hu' (hpath' ▸ hpath) hw
          have hnone := excess?_eq_none hexcess
          have hsame : (Sink.orFile u).fragment = u.fragment ∧ (Sink.orFile u).query = u.query := by
            unfold Sink.orFile
            split
            · exact ⟨rfl, rfl⟩
            · exact ⟨rfl, rfl⟩
          rw [hsame.1, hsame.2] at hnone
          refine ⟨name, u'.query.elim [] (63 :: ·),
            (Bytes.cut 35 address).2.elim [] (35 :: ·), hspells, ?_, ?_, ?_⟩
          · rw [hquery'] at hnone
            cases hq : u'.query with
            | none => exact Or.inl rfl
            | some q =>
              rw [hq] at hnone
              have hempty : q = [] := hnone.2
              rw [hempty]
              exact Or.inr (by decide)
          · rcases hfragment hnone.1 with hf | hf
            · rw [hf]
              exact Or.inl rfl
            · rw [hf]
              exact Or.inr (by decide)
          · rw [← hbody, Bytes.append_cut]

/-! ## what writes a word is read as it -/

/-- The bytes that the spelling of a word may hold. -/
def inSpelling (b : UInt8) : Bool := b == 37 || isDigit b || isLetter b

/-- A spelling of a word holds escapes, digits and letters only. -/
theorem inSpelling_of_mem {name word : Bytes} (h : Spells name word) (hw : IsWord word)
    {b : UInt8} (hb : b ∈ name) : inSpelling b = true := by
  have hdigit : ∀ n < 256, (Hexadecimal.digit? (UInt8.ofNat n)).isSome →
      inSpelling (UInt8.ofNat n) = true := by decide +kernel
  rcases h.mem hb with rfl | hhex | hmem
  · rfl
  · have := hdigit b.toNat b.toNat_lt
    rw [UInt8.ofNat_toNat] at this
    exact this hhex
  · simp [inSpelling, hw.2 b hmem]

/-- None of the bytes that divide a URL is among them, and no control character. -/
theorem not_mem_of_not_inSpelling {name word : Bytes} (h : Spells name word) (hw : IsWord word)
    {b : UInt8} (hb : inSpelling b = false) : b ∉ name := by
  intro hmem
  rw [inSpelling_of_mem h hw hmem] at hb
  contradiction

theorem not_isControl_of_inSpelling {b : UInt8} (h : inSpelling b = true) :
    isControl b = false := by
  have hall : ∀ n < 256, inSpelling (UInt8.ofNat n) = true →
      isControl (UInt8.ofNat n) = false := by decide +kernel
  have := hall b.toNat b.toNat_lt
  rw [UInt8.ofNat_toNat] at this
  exact this h

/-- A text without a colon has no scheme. -/
theorem takeScheme_of_not_mem {text : Bytes} (h : 58 ∉ text) :
    takeScheme text = .ok ([], text) := by
  unfold takeScheme
  split
  · exact absurd List.mem_cons_self h
  · next b tail _ =>
    split
    · split
      · next rest hdrop =>
        have hmem : (58 : UInt8) ∈ (b :: tail).dropWhile inScheme := by
          rw [hdrop]
          exact List.mem_cons_self
        exact absurd ((List.dropWhile_sublist _).subset hmem) h
      · rfl
    · rfl
  · rfl

/-- A spelling of a word is a path, with no scheme and no authority. -/
theorem readRest_of_spells {name word : Bytes} (h : Spells name word) (hw : IsWord word)
    (query : Option Bytes) :
    readRest { blank with query := query } name =
      .ok { blank with query := query, pathText := name, path := word } := by
  have hslash : 47 ∉ name := not_mem_of_not_inSpelling h hw (by decide)
  have hcolon : 58 ∉ name := not_mem_of_not_inSpelling h hw (by decide)
  have hpath : withPath { blank with query := query } name =
      .ok { blank with query := query, pathText := name, path := word } := by
    rw [withPath, decodePart, decode_eq_ok_iff.2 h]
    rfl
  have hfirst : (Bytes.cut 47 name).1.contains 58 = false := by
    rw [Bytes.cut_of_not_mem hslash]
    simpa using hcolon
  unfold readRest
  split
  · exact absurd List.mem_cons_self hslash
  · exact absurd List.mem_cons_self hslash
  · rw [if_neg (fun hne => hne rfl), if_neg (by rw [hfirst]; decide), hpath]

/-- A spelling with an empty query is read as the word, with nothing else around it. -/
theorem readWhole_of_spells {name word query : Bytes} (h : Spells name word) (hw : IsWord word)
    (hquery : query = [] ∨ query = ascii "?") :
    ∃ q, (q = none ∨ q = some []) ∧ readWhole (name ++ query) =
      .ok { blank with query := q, pathText := name, path := word } := by
  have hmem : ∀ b ∈ name ++ query, b ∈ name ∨ b = 63 := by
    intro b hb
    rw [List.mem_append] at hb
    rcases hquery with rfl | rfl
    · exact hb.imp_right fun h => absurd h List.not_mem_nil
    · exact hb.imp_right List.mem_singleton.1
  have hcontrol : ¬ (name ++ query).any isControl = true := by
    rw [List.any_eq_true]
    rintro ⟨b, hb, hctl⟩
    rcases hmem b hb with hname | rfl
    · rw [not_isControl_of_inSpelling (inSpelling_of_mem h hw hname)] at hctl
      contradiction
    · exact absurd hctl (by decide)
  have hnot : ∀ b, inSpelling b = false → b ≠ 63 → b ∉ name ++ query := by
    intro b hb hne hin
    rcases hmem b hin with hname | he
    · exact not_mem_of_not_inSpelling h hw hb hname
    · exact hne he
  have hstar : name ++ query ≠ ascii "*" := by
    intro heq
    exact hnot 42 (by decide) (by decide) (by rw [heq]; decide)
  have hscheme := takeScheme_of_not_mem (hnot 58 (by decide) (by decide))
  have hcut : ∃ q, (q = none ∨ q = some []) ∧ Bytes.cut 63 (name ++ query) = (name, q) := by
    have hname : 63 ∉ name := not_mem_of_not_inSpelling h hw (by decide)
    rcases hquery with rfl | rfl
    · exact ⟨none, Or.inl rfl, by rw [List.append_nil, Bytes.cut_of_not_mem hname]⟩
    · exact ⟨some [], Or.inr rfl, Bytes.cut_append hname []⟩
  obtain ⟨q, hq, hcut⟩ := hcut
  refine ⟨q, hq, ?_⟩
  rw [readWhole, if_neg hcontrol, if_neg hstar, hscheme]
  change readRest { blank with query := (Bytes.cut 63 (name ++ query)).2 }
    (Bytes.cut 63 (name ++ query)).1 = _
  rw [hcut]
  exact readRest_of_spells h hw q

/-- What writes a word is read as the word, with nothing else around it. -/
theorem parse_of_writes {word address : Bytes} (hw : IsWord word) (h : Writes word address) :
    ∃ name q, (q = none ∨ q = some []) ∧ parse address =
      .ok { blank with query := q, pathText := name, path := word } := by
  obtain ⟨name, query, fragment, hspells, hquery, hfragment, rfl⟩ := h
  obtain ⟨q, hq, hread⟩ := readWhole_of_spells hspells hw hquery
  have hhash : 35 ∉ name ++ query := by
    rw [List.mem_append, not_or]
    refine ⟨not_mem_of_not_inSpelling hspells hw (by decide), ?_⟩
    rcases hquery with rfl | rfl
    · exact List.not_mem_nil
    · decide
  refine ⟨name, q, hq, ?_⟩
  unfold parse
  rcases hfragment with rfl | rfl
  · rw [List.append_nil, Bytes.cut_of_not_mem hhash]
    simp only [hread]
  · have hcut : Bytes.cut 35 (name ++ query ++ ascii "#") = (name ++ query, some []) :=
      Bytes.cut_append hhash []
    rw [hcut]
    simp only [hread]
    rfl

/-- **The addresses whose path is a word**: its spellings, with an empty query and an empty fragment
added at will. -/
theorem pathOf_eq_ok_iff {word address : Bytes} (hw : IsWord word) :
    Sink.pathOf address = .ok word ↔ Writes word address := by
  refine ⟨writes_of_pathOf hw, fun h => ?_⟩
  obtain ⟨name, q, hq, hparse⟩ := parse_of_writes hw h
  have hslash : address.head? ≠ some 47 := by
    obtain ⟨name, query, fragment, hspells, -, -, rfl⟩ := h
    cases name with
    | nil => exact absurd rfl (hspells.ne_nil hw.1)
    | cons b rest =>
      intro hhead
      have hb : b = 47 := Option.some.inj hhead
      have hin := inSpelling_of_mem hspells hw List.mem_cons_self
      rw [hb] at hin
      exact absurd hin (by decide)
  have hexcess : Sink.excess? (Sink.orFile
      { blank with query := q, pathText := name, path := word }) = none := by
    rcases hq with rfl | rfl
    · rfl
    · rfl
  rw [Sink.pathOf, if_neg hslash, hparse]
  change (if (Sink.orFile _).scheme ≠ Sink.fileScheme then _ else _) = _
  rw [if_neg (fun hne => hne rfl), hexcess]

end Url

end ArgLine
