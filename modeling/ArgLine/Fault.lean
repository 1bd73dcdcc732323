import ArgLine.Text.Decimal

/-!
# ArgLine.Fault

How a computation can end other than by returning.

* A `Fault` is an abnormal end: it passes through everything that does not
  catch it, and its text is fixed by its cause.
* A `Stop` is either an error of the operation's own kind, which callers
  handle, or a fault, which they do not.
* An `Outcome` is a stop or a normal end without a result.
-/

namespace ArgLine

/-- An abnormal end, by its cause. -/
inductive Fault where
  /-- Something that is absent was used as if it were there. -/
  | absent
  /-- A division by zero. -/
  | zeroDivisor
  /-- An index outside a slice of the given length. -/
  | index (i : Int64) (length : Nat)
  /-- Bounds that do not lie inside a slice. -/
  | bounds
  /-- Two records of lists were compared. -/
  | uncomparable
  /-- An abnormal end raised on purpose, with its text. -/
  | raised (text : Bytes)
  deriving DecidableEq, Repr

/-- The text of an abnormal end.  A negative index is shown without the length. -/
def Fault.message : Fault → Bytes
  | .absent => ascii "runtime error: invalid memory address or nil pointer dereference"
  | .zeroDivisor => ascii "runtime error: integer divide by zero"
  | .index i length =>
    ascii "runtime error: index out of range [" ++ Decimal.ofInt i.toInt ++ ascii "]" ++
      if i < 0 then [] else ascii " with length " ++ Decimal.ofNat length
  | .bounds => ascii "runtime error: slice bounds out of range"
  | .uncomparable => ascii "runtime error: comparing uncomparable type model.Record[[]string]"
  | .raised text => text

/-- A reason not to return: an error of kind `ε`, or a fault. -/
inductive Stop (ε : Type) where
  | failed (error : ε)
  | aborted (fault : Fault)
  deriving DecidableEq, Repr

/-- How a computation without a result ends. -/
inductive Outcome (ε : Type) where
  | done
  | failed (error : ε)
  | aborted (fault : Fault)
  deriving DecidableEq, Repr

namespace Outcome

/-- The same end with another kind of error. -/
def mapError (f : ε → ε') : Outcome ε → Outcome ε'
  | done => .done
  | failed error => .failed (f error)
  | aborted fault => .aborted fault

/-- The end of a computation that can only return or abort. -/
def ofFault? : Option Fault → Outcome ε
  | none => .done
  | some fault => .aborted fault

end Outcome

end ArgLine
