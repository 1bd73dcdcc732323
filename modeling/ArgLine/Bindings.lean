import ArgLine.Text.Bytes

/-!
# ArgLine.Bindings

Named variables: the last value given to a name is the one that counts.
-/

namespace ArgLine

/-- Values by name, the newest binding first. -/
structure Bindings (α : Type) where
  entries : List (Bytes × α)
  deriving DecidableEq, Repr

namespace Bindings

/-- No name is bound. -/
def empty : Bindings α := ⟨[]⟩

/-- The value of a name, if it was ever given one. -/
def get? (b : Bindings α) (name : Bytes) : Option α := b.entries.lookup name

/-- Gives a name a value. -/
def set (b : Bindings α) (name : Bytes) (value : α) : Bindings α :=
  ⟨(name, value) :: b.entries⟩

@[simp] theorem get?_empty (name : Bytes) : (empty : Bindings α).get? name = none := rfl

/-- A name has the value it was given. -/
@[simp] theorem get?_set_self (b : Bindings α) (name : Bytes) (value : α) :
    (b.set name value).get? name = some value := by
  simp [get?, set]

/-- Giving a name a value leaves the other names alone. -/
theorem get?_set_of_ne (b : Bindings α) {name other : Bytes} (value : α) (h : other ≠ name) :
    (b.set name value).get? other = b.get? other := by
  have hb : (other == name) = false := by simpa using h
  simp [get?, set, List.lookup_cons, hb]

end Bindings

end ArgLine
