import ArgLine.Fault
import ArgLine.Log.Entry

/-!
# ArgLine.Log.Logger

What becomes of an entry.  A logger delivers the entries at or above its
threshold and drops the others; a silent one drops all; an absent one cannot be
used at all.
-/

namespace ArgLine

namespace Log

/-- Decides which entries are delivered. -/
inductive Logger where
  /-- There is no logger. -/
  | absent
  /-- Nothing is delivered. -/
  | silent
  /-- Entries of this level and above are delivered. -/
  | atLeast (threshold : Level)
  deriving DecidableEq, Repr

namespace Logger

/-- Whether an entry of a level is delivered. -/
def enabled : Logger → Level → Bool
  | absent, _ => false
  | silent, _ => false
  | atLeast threshold, l => threshold ≤ l

/-- The least level that is delivered. -/
def threshold? : Logger → Option Level
  | atLeast threshold => some threshold
  | _ => none

/-- The logger itself, or a silent one in place of none. -/
def orSilent : Logger → Logger
  | absent => silent
  | l => l

/-- What is delivered of an entry: the entry or nothing. -/
def delivered (l : Logger) (e : Entry) : List Entry :=
  if l.enabled e.level then [e] else []

/-- Logs an entry.  An entry of level `panic` aborts with its message once it is delivered or
dropped; using an absent logger aborts. -/
def log (l : Logger) (e : Entry) : List Entry × Option Fault :=
  match l with
  | absent => ([], some .absent)
  | l => (l.delivered e, if e.level = .panic then some (.raised e.message) else none)

end Logger

end Log

end ArgLine
