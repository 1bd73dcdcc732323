import ArgLine.Text.Decimal

/-!
# ArgLine.Variant

The two ways to run the program, named by a signed 64-bit code.  Other codes
have a name too, so that a message can tell them apart.
-/

namespace ArgLine

/-- A way to run the program. -/
structure Variant where
  code : Int64
  deriving DecidableEq, Repr

namespace Variant

/-- Uses ordinary values only. -/
def plain : Variant := ⟨0⟩

/-- Acquires an aligned buffer for the time of the run. -/
def aligned : Variant := ⟨1⟩

/-- The name of a variant. -/
def name (v : Variant) : Bytes :=
  if v = plain then ascii "plain"
  else if v = aligned then ascii "aligned"
  else ascii "Variant(" ++ Decimal.ofInt v.code.toInt ++ ascii ")"

end Variant

end ArgLine
