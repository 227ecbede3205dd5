/-
  Settings: what a manager is built from, and how large its tables become.

  The wish for a number of buckets counts only from `minBuckets` up; below that, an eighth of the
  expected number of directories is wished for instead.  A table gets the least power of two that
  fulfils the wish, within 1 and 2^26.  Its locks are the least power of two that fulfils their
  wish, at most 256, and never more than its buckets.
-/
import NameCache.Fault

namespace NameCache

/-- The settings of a manager. -/
structure Settings where
  /-- The wish for buckets of each table. -/
  buckets : UInt64 := 0
  /-- The least wish that counts. -/
  minBuckets : UInt64 := 64
  /-- The number of directories expected. -/
  vnodes : UInt64 := 262144
  /-- Whether all directories share one pool. -/
  shared : Bool := true
  /-- The first position of the switch. -/
  enabled : Bool := true
  /-- The wish for locks of each table, if it is not left to the machine. -/
  locks : Option UInt64 := none
  deriving DecidableEq, Repr, Inhabited

namespace Settings

/-- The greatest number of buckets of a table: two to the 26th power. -/
def mostBuckets : Nat := 67108864

/-- The greatest number of locks of a table. -/
def mostLocks : Nat := 256

/-- The least power of two that is not below `n`. -/
def leastPower (n : Nat) : Nat := if n ≤ 1 then 1 else 1 <<< ((n - 1).log2 + 1)

/-- The number of buckets that a wish comes to. -/
def roundBuckets (wish : UInt64) : Nat := leastPower (max 1 (min wish.toNat mostBuckets))

/-- The wish for buckets that counts. -/
def bucketWish (s : Settings) : UInt64 :=
  if s.buckets < s.minBuckets then s.vnodes / 8 else s.buckets

/-- The number of buckets of each table. -/
def bucketCount (s : Settings) : Nat := roundBuckets s.bucketWish

/-- The wish for locks, on a machine that runs so many threads at a time. -/
def lockWish (s : Settings) (threads : Nat) : Nat := max 1 ((s.locks.map (·.toNat)).getD threads)

/-- The number of locks of a table with the given number of buckets.  The power of two has to fit
    into 64 bits before it is cut to size. -/
def lockCount (s : Settings) (threads buckets : Nat) : Except Fault Nat :=
  let wish := s.lockWish threads
  if wish ≤ UInt64.size / 2 then .ok (min (min (leastPower wish) mostLocks) buckets)
  else .error .sumOverflow

/-- The settings as a text. -/
def describe (s : Settings) : String :=
  Text.Record.whole "DirCacheConfig" [
    ("buckets", toString s.buckets.toNat),
    ("min_buckets", toString s.minBuckets.toNat),
    ("desired_vnodes", toString s.vnodes.toNat),
    ("global", Text.Record.flag s.shared),
    ("enable", Text.Record.flag s.enabled),
    ("bucket_locks", match s.locks with
      | some n => Text.Record.wrapped "Some" (toString n.toNat)
      | none => "None")]

/-! ## A wish that counts, one that does not, and one that is too great -/

example : bucketCount { buckets := 100 } = 128 := by decide +kernel
example : bucketCount { buckets := 63 } = 32768 := by decide +kernel
example : roundBuckets 1000000000000 = mostBuckets := by decide +kernel

end Settings

end NameCache
