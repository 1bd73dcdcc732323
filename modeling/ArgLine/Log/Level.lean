import ArgLine.Text.Quoted

/-!
# ArgLine.Log.Level

The seven severities of a log entry, from `debug` to `fatal`, their names and
how a name is read: each character is lower-cased first, and the empty text
means `info`.
-/

namespace ArgLine

namespace Log

/-- The severity of a log entry. -/
inductive Level where
  | debug | info | warn | error | dpanic | panic | fatal
  deriving DecidableEq, Repr

namespace Level

/-- The place of a level in the order of severity. -/
def rank : Level → Nat
  | debug => 0
  | info => 1
  | warn => 2
  | error => 3
  | dpanic => 4
  | panic => 5
  | fatal => 6

instance : LE Level := ⟨fun a b => a.rank ≤ b.rank⟩

instance (a b : Level) : Decidable (a ≤ b) := inferInstanceAs (Decidable (a.rank ≤ b.rank))

/-- All levels, least severe first. -/
def all : List Level := [debug, info, warn, error, dpanic, panic, fatal]

/-- The name of a level, in lower case. -/
def name : Level → Bytes
  | debug => ascii "debug"
  | info => ascii "info"
  | warn => ascii "warn"
  | error => ascii "error"
  | dpanic => ascii "dpanic"
  | panic => ascii "panic"
  | fatal => ascii "fatal"

/-! ## Reading a name -/

/-- The lower case of a character, as far as it is an ASCII letter.  Outside ASCII only the dotted
capital I and the Kelvin sign have one; every other character is left alone, and no level's name
holds it. -/
def lowerChar (c : Char) : Char :=
  if 'A' ≤ c ∧ c ≤ 'Z' then Char.ofNat (c.toNat + 32)
  else if c.toNat = 0x130 then 'i'
  else if c.toNat = 0x212A then 'k'
  else c

/-- A text with each character lower-cased; stray bytes stay. -/
def lower (text : Bytes) : Bytes :=
  (Utf8.pieces text).flatMap fun
    | .scalar c => String.utf8EncodeChar (lowerChar c)
    | .stray b => [b]

/-- The level that a text names. -/
def parse? (text : Bytes) : Option Level :=
  if text = [] then some info
  else all.find? fun l => l.name = lower text

/-- Why a text names no level. -/
def unrecognized (text : Bytes) : Bytes :=
  ascii "unrecognized level: " ++ Quoted.quote text

end Level

end Log

end ArgLine
