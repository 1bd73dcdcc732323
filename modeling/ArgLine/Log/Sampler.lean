import ArgLine.Log.Entry

/-!
# ArgLine.Log.Sampler

Thinning of entries that come again and again.

1. Entries are counted by level and by a hash of their message, in 4096 buckets
   for each level; messages of one bucket are counted together.
2. The first 100 entries of a bucket pass, and after them every hundredth.

Counting starts anew with every channel.  Counts are over a second of time, and
a run of operations is taken to be shorter than that.
-/

namespace ArgLine

namespace Log

/-- Where an entry is counted. -/
structure Bucket where
  level : Level
  slot : Nat
  deriving DecidableEq, Repr

namespace Bucket

/-- The number of buckets of a level. -/
def count : Nat := 4096

/-- A 32-bit hash: for each byte exclusive or, then a product that wraps around. -/
def hash (text : Bytes) : UInt32 :=
  text.foldl (fun h b => (h ^^^ b.toUInt32) * 16777619) 2166136261

/-- The bucket of an entry. -/
def ofEntry (e : Entry) : Bucket := ⟨e.level, (hash e.message).toNat % count⟩

end Bucket

/-- How many entries each bucket has met; a bucket that is not listed has met none. -/
structure Sampler where
  counts : List (Bucket × Nat)
  deriving DecidableEq, Repr

namespace Sampler

/-- No entry was met yet. -/
def fresh : Sampler := ⟨[]⟩

/-- How many entries of a bucket pass before they are thinned. -/
def first : Nat := 100

/-- After the first entries, one in so many passes. -/
def thereafter : Nat := 100

/-- Whether the `n`-th entry of a bucket passes. -/
def passes (n : Nat) : Bool := n ≤ first || (n - first) % thereafter == 0

/-- How many entries a bucket has met. -/
def met (s : Sampler) (b : Bucket) : Nat := (s.counts.lookup b).getD 0

/-- Counts an entry of a bucket. -/
def bump : List (Bucket × Nat) → Bucket → List (Bucket × Nat)
  | [], b => [(b, 1)]
  | (c, n) :: rest, b => if c = b then (c, n + 1) :: rest else (c, n) :: bump rest b

/-- Counts an entry. -/
def count (s : Sampler) (e : Entry) : Sampler := ⟨bump s.counts (.ofEntry e)⟩

/-- Offers entries in order, and gives those that pass. -/
def sift (s : Sampler) : List Entry → Sampler × List Entry
  | [] => (s, [])
  | e :: rest =>
    let next := s.count e
    let (last, passed) := next.sift rest
    (last, if passes (next.met (.ofEntry e)) then e :: passed else passed)

end Sampler

end Log

end ArgLine
