/-
  Hashes of names.

  A directory's 64-bit number is mixed down to 32 bits, and a name of that directory hashes to its
  own 32-bit digest with the mixed number folded in by exclusive or.  So one name gets different
  hashes in different directories, and the directories that share a table spread over its buckets.

  `mixWide` is the mixing before the cut to 32 bits; every step of it can be undone.
-/
import NameCache.Text.Utf8

namespace NameCache.Digest

/-- The 64-bit mixing of a directory number. -/
def mixWide (id : UInt64) : UInt64 :=
  let a := ~~~id + (id <<< 18)
  let b := a ^^^ (a >>> 31)
  let c := b * 21
  let d := c ^^^ (c >>> 11)
  let e := d + (d <<< 6)
  e ^^^ (e >>> 22)

/-- A directory number in 32 bits: the low half of its mixing. -/
def mix (id : UInt64) : UInt32 := (mixWide id).toUInt32

/-- The digest of a byte string: from 5381 times its length, each byte multiplies by 33 and adds
    itself, modulo 2^32. -/
def ofBytes (bytes : Bytes) : UInt32 :=
  bytes.foldl (fun h b => h * 33 + b.toUInt32) (5381 * UInt32.ofNat bytes.length)

/-- The hash of a name of the directory numbered `dir`. -/
def ofName (dir : UInt64) (name : Bytes) : UInt32 := mix dir ^^^ ofBytes name

/-! ## One name in two directories -/

example : ofName 1 [0x61] = 357820858 := by decide
example : ofName 2 [0x61] ≠ ofName 1 [0x61] := by decide

end NameCache.Digest
