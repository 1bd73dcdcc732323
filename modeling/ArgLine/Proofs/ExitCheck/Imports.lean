import ArgLine.ExitCheck.Package
import ArgLine.Proofs.Text.Literal

/-!
# ArgLine.Proofs.ExitCheck.Imports

An import of testing is found however it is spelled, and nothing else is taken for one.

* `spellsTesting_exact`: the imports hold a spelling of testing exactly if one of them is a string
  literal that denotes one of its two paths.  Every way to write a path in characters and escapes is
  found, and a malformed literal never counts.
-/

namespace ArgLine

namespace ExitCheck

namespace SourceFile

open Literal (Denotes Item Malformed)

/-- Both paths are longer than what a character in single quotes denotes. -/
theorem lt_length_of_mem_testingPaths : ∀ path ∈ testingPaths, 4 < path.length := by decide

/-- Testing is imported if some literal denotes one of its paths. -/
theorem spellsTesting_iff_denotes {imports : List Bytes} :
    spellsTesting imports = true ↔ ∃ literal ∈ imports, ∃ path ∈ testingPaths,
      Denotes literal path := by
  simp only [spellsTesting, List.any_eq_true, Option.any_eq_true, List.contains_iff_mem]
  constructor
  · rintro ⟨literal, hliteral, path, hread, hpath⟩
    have hlong := lt_length_of_mem_testingPaths path hpath
    exact ⟨literal, hliteral, path, hpath, (Literal.unquote?_eq_some_iff_of_lt hlong).1 hread⟩
  · rintro ⟨literal, hliteral, path, hpath, h⟩
    have hlong := lt_length_of_mem_testingPaths path hpath
    exact ⟨literal, hliteral, path, (Literal.unquote?_eq_some_iff_of_lt hlong).2 h, hpath⟩

/-- A literal that is malformed does not count. -/
theorem spellsTesting_cons_of_malformed {literal : Bytes} (h : Malformed literal)
    (imports : List Bytes) : spellsTesting (literal :: imports) = spellsTesting imports := by
  rw [Bool.eq_iff_iff, spellsTesting_iff_denotes, spellsTesting_iff_denotes]
  constructor
  · rintro ⟨other, hother, path, hpath, hdenotes⟩
    rcases List.mem_cons.1 hother with rfl | hother
    · exact absurd hdenotes (Literal.malformed_iff.1 h path)
    · exact ⟨other, hother, path, hpath, hdenotes⟩
  · rintro ⟨other, hother, hdenotes⟩
    exact ⟨other, List.mem_cons_of_mem literal hother, hdenotes⟩

/-- **An import of testing is found however it is spelled.**  The imports spell testing exactly if
one of them is a string literal that denotes one of the two paths.  So every respelling of a path in
characters and escapes is found, and what is malformed, a character in single quotes too, adds
nothing. -/
theorem spellsTesting_exact (imports : List Bytes) :
    (spellsTesting imports = true ↔ ∃ literal ∈ imports,
      ∃ path ∈ [ascii "testing", ascii "testing/internal/testdeps"], Denotes literal path) ∧
    (∀ items : List (Bytes × Bytes), (∀ i ∈ items, ∀ rest, Item 34 rest i.1 i.2) →
      items.flatMap Prod.snd ∈ [ascii "testing", ascii "testing/internal/testdeps"] →
      34 :: (items.flatMap Prod.fst ++ [34]) ∈ imports → spellsTesting imports = true) ∧
    ∀ literal, Malformed literal → spellsTesting (literal :: imports) = spellsTesting imports := by
  refine ⟨spellsTesting_iff_denotes, fun items hitems hpath hliteral => ?_, fun literal h => ?_⟩
  · exact spellsTesting_iff_denotes.2
      ⟨_, hliteral, _, hpath, .interpreted (Literal.interpreted_flatMap hitems)⟩
  · exact spellsTesting_cons_of_malformed h imports

/-- The path with its first three letters escaped, in three ways. -/
def mixedItems : List (Bytes × Bytes) :=
  [(ascii "\\x74", [116]), (ascii "\\145", [101]), (ascii "\\u0073", [115]),
    (ascii "t", [116]), (ascii "i", [105]), (ascii "n", [110]), (ascii "g", [103])]

theorem item_mixedItems : ∀ i ∈ mixedItems, ∀ rest, Item 34 rest i.1 i.2 := by
  intro i hi rest
  simp only [mixedItems, List.mem_cons, List.not_mem_nil, or_false] at hi
  rcases hi with rfl | rfl | rfl | rfl | rfl | rfl | rfl
  · exact .escape (.byte rfl (Literal.hexNumber_of_value? rfl))
  · exact .escape (.octal (x := 1) (y := 4) (z := 5) rfl rfl rfl (by decide))
  · exact .escape (.short (c := 's') rfl (Literal.hexNumber_of_value? rfl))
  · exact .char (c := 't') (by decide) (by decide) (by decide)
  · exact .char (c := 'i') (by decide) (by decide) (by decide)
  · exact .char (c := 'n') (by decide) (by decide) (by decide)
  · exact .char (c := 'g') (by decide) (by decide) (by decide)

/-- The escape at the end of the first import is cut short; the second import is the path. -/
theorem spellsTesting_exact_mixed :
    Malformed (ascii "\"testin\\x6\"") ∧
    spellsTesting [ascii "\"testin\\x6\"", ascii "\"\\x74\\145\\u0073ting\""] = true := by
  have hmalformed : Malformed (ascii "\"testin\\x6\"") := by
    refine Literal.malformed_iff.2 fun text h => ?_
    have hread := Literal.unquote?_eq_some_iff.2 (Or.inl h)
    have hnone : Literal.unquote? (ascii "\"testin\\x6\"") = none := by decide
    rw [hnone] at hread
    contradiction
  have hexact := spellsTesting_exact [ascii "\"\\x74\\145\\u0073ting\""]
  refine ⟨hmalformed, ?_⟩
  rw [hexact.2.2 _ hmalformed]
  exact hexact.2.1 mixedItems item_mixedItems (by decide) (by decide)

end SourceFile

end ExitCheck

end ArgLine
