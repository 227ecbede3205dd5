/-
  The sizes that settings come to are fit for tables.

  `leastPower n` is the least power of two that is not below `n` (`leastPower_le_iff`), so a bound
  that is a power of two itself bounds it as soon as it bounds `n`.  The buckets are cut to size
  before they are rounded and the locks afterwards.  The least of powers of two is one of them, so
  both come to the same in the end, as long as the rounding itself goes through.

  That it is the least one (`LeastPowerFor`) says all the rest about rounding: that it keeps the
  order, leaves a power of two as it is, and stays below twice the number (`bucketCount_least`).
-/
import NameCache.Settings.Basic
import NameCache.Table

namespace NameCache

namespace Settings

variable {s : Settings} {threads buckets locks n k : Nat}

/-! ## Powers of two -/

theorem isPowerOfTwo_shiftLeft (k : Nat) : (1 <<< k).isPowerOfTwo := ⟨k, Nat.one_shiftLeft k⟩

theorem isPowerOfTwo_leastPower (n : Nat) : (leastPower n).isPowerOfTwo := by
  unfold leastPower
  split
  · exact isPowerOfTwo_shiftLeft 0
  · exact isPowerOfTwo_shiftLeft _

/-- A power of two is not below `leastPower n` exactly if it is not below `n`. -/
theorem leastPower_le_iff : leastPower n ≤ 1 <<< k ↔ n ≤ 1 <<< k := by
  have pos : 1 ≤ 1 <<< k := by
    rw [Nat.one_shiftLeft]
    exact Nat.one_le_two_pow
  unfold leastPower
  by_cases small : n ≤ 1
  · rw [if_pos small]
    exact iff_of_true pos (Nat.le_trans small pos)
  · have nonzero : n - 1 ≠ 0 := by omega
    rw [if_neg small, Nat.one_shiftLeft, Nat.one_shiftLeft,
      Nat.pow_le_pow_iff_right (by decide), Nat.succ_le_iff, Nat.log2_lt nonzero]
    omega

theorem le_leastPower (n : Nat) : n ≤ leastPower n := by
  obtain ⟨k, power⟩ := isPowerOfTwo_leastPower n
  rw [← Nat.one_shiftLeft] at power
  rw [power]
  exact leastPower_le_iff.mp (Nat.le_of_eq power)

theorem isPowerOfTwo_min (hn : n.isPowerOfTwo) (hk : k.isPowerOfTwo) : (min n k).isPowerOfTwo := by
  rcases Nat.le_total n k with le | le
  · rw [Nat.min_eq_left le]
    exact hn
  · rw [Nat.min_eq_right le]
    exact hk

/-! ## Buckets and locks -/

/-- Whatever is wished for, it comes to a power of two between 1 and the most there may be. -/
theorem roundBuckets_fit (wish : UInt64) :
    (roundBuckets wish).isPowerOfTwo ∧ 1 ≤ roundBuckets wish ∧ roundBuckets wish ≤ mostBuckets := by
  refine ⟨isPowerOfTwo_leastPower _, ?_, ?_⟩
  · exact Nat.le_trans (Nat.le_max_left 1 _) (le_leastPower _)
  · have bound : max 1 (min wish.toNat mostBuckets) ≤ mostBuckets :=
      Nat.max_le.mpr ⟨by decide, Nat.min_le_right _ _⟩
    exact leastPower_le_iff (k := 26).mpr bound

/-- The rounding of a wish for locks goes through up to two to the 63rd power. -/
theorem lockCount_of_le (fits : s.lockWish threads ≤ UInt64.size / 2) (buckets : Nat) :
    s.lockCount threads buckets =
      .ok (min (min (leastPower (s.lockWish threads)) mostLocks) buckets) := if_pos fits

theorem lockCount_of_lt (over_half : UInt64.size / 2 < s.lockWish threads) (buckets : Nat) :
    s.lockCount threads buckets = .error .sumOverflow := if_neg (Nat.not_le.mpr over_half)

/-- What can be said of the buckets and locks that settings come to, whatever the settings. -/
structure Sized (buckets locks : Nat) : Prop where
  buckets_power : buckets.isPowerOfTwo
  buckets_pos : 1 ≤ buckets
  /-- At most two to the 26th power. -/
  buckets_le : buckets ≤ 1 <<< 26
  locks_power : locks.isPowerOfTwo
  locks_pos : 1 ≤ locks
  locks_le : locks ≤ min 256 buckets

theorem Sized.geometry (sized : Sized buckets locks) : Table.Geometry buckets locks :=
  ⟨sized.buckets_power, sized.locks_power, Nat.le_trans sized.locks_le (Nat.min_le_right _ _)⟩

theorem sized (counted : s.lockCount threads s.bucketCount = .ok locks) :
    Sized s.bucketCount locks := by
  have fits : s.lockWish threads ≤ UInt64.size / 2 := by
    refine Nat.not_lt.mp fun over_half => ?_
    rw [lockCount_of_lt over_half] at counted
    exact absurd counted (by rintro ⟨⟩)
  rw [lockCount_of_le fits] at counted
  obtain rfl := Except.ok.inj counted
  obtain ⟨power, pos, le⟩ := roundBuckets_fit s.bucketWish
  have most : mostLocks.isPowerOfTwo := isPowerOfTwo_shiftLeft 8
  have locks := isPowerOfTwo_min (isPowerOfTwo_min
    (isPowerOfTwo_leastPower (s.lockWish threads)) most) power
  refine ⟨power, pos, le, locks, Nat.pos_of_isPowerOfTwo locks, ?_⟩
  exact Nat.le_min.mpr ⟨Nat.le_trans (Nat.min_le_left _ _) (Nat.min_le_right _ _),
    Nat.min_le_right _ _⟩

/-! ## The least of the powers of two -/

/-- The least of the powers of two that are not below `n`. -/
structure LeastPowerFor (n p : Nat) : Prop where
  power : p.isPowerOfTwo
  le : n ≤ p
  least : ∀ q, q.isPowerOfTwo → n ≤ q → p ≤ q

theorem leastPowerFor_leastPower (n : Nat) : LeastPowerFor n (leastPower n) := by
  refine ⟨isPowerOfTwo_leastPower n, le_leastPower n, ?_⟩
  rintro q ⟨k, rfl⟩ le
  rw [← Nat.one_shiftLeft] at le ⊢
  exact leastPower_le_iff.mpr le

theorem leastPower_mono (le : n ≤ k) : leastPower n ≤ leastPower k :=
  (leastPowerFor_leastPower n).least _ (isPowerOfTwo_leastPower k)
    (Nat.le_trans le (le_leastPower k))

theorem leastPower_of_isPowerOfTwo (power : n.isPowerOfTwo) : leastPower n = n :=
  Nat.le_antisymm ((leastPowerFor_leastPower n).least n power (Nat.le_refl n)) (le_leastPower n)

/-- Rounding does not reach twice the number: half of what it comes to would be enough. -/
theorem leastPower_lt_double (pos : 1 ≤ n) : leastPower n < 2 * n := by
  apply Nat.lt_of_not_le
  intro double
  obtain ⟨k, power⟩ := isPowerOfTwo_leastPower n
  cases k with
  | zero =>
    rw [power, Nat.pow_zero] at double
    omega
  | succ k =>
    rw [Nat.pow_succ, ← Nat.one_shiftLeft] at power
    have enough : n ≤ 1 <<< k := by omega
    have half := (leastPowerFor_leastPower n).least _ (isPowerOfTwo_shiftLeft k) enough
    omega

/-! ## What a wish comes to -/

/-- The wish that counts is the one that was made, from the least one that counts up, and otherwise
    an eighth of the directories expected. -/
theorem toNat_bucketWish (s : Settings) :
    s.bucketWish.toNat =
      if s.minBuckets.toNat ≤ s.buckets.toNat then s.buckets.toNat else s.vnodes.toNat / 8 := by
  unfold bucketWish
  by_cases counts : s.minBuckets.toNat ≤ s.buckets.toNat
  · rw [if_pos counts, if_neg (by rw [UInt64.lt_iff_toNat_lt]; omega)]
  · rw [if_neg counts, if_pos (by rw [UInt64.lt_iff_toNat_lt]; omega), UInt64.toNat_div]
    rfl

/-- What a wish comes to is small enough to be wished for. -/
theorem toNat_roundBuckets (wish : UInt64) :
    (UInt64.ofNat (roundBuckets wish)).toNat = roundBuckets wish := by
  have most : roundBuckets wish ≤ 67108864 := (roundBuckets_fit wish).2.2
  apply UInt64.toNat_ofNat_of_lt'
  show _ < 18446744073709551616
  omega

theorem roundBuckets_of_isPowerOfTwo {wish : UInt64} (power : wish.toNat.isPowerOfTwo)
    (most : wish.toNat ≤ mostBuckets) : roundBuckets wish = wish.toNat := by
  unfold roundBuckets
  rw [Nat.min_eq_left most, Nat.max_eq_right (Nat.pos_of_isPowerOfTwo power)]
  exact leastPower_of_isPowerOfTwo power

/-- The buckets of settings are the least power of two that fulfils their wish, within 1 and two to
    the 26th power.  Rounding a wish keeps the order of wishes, has nothing left to do on what it
    came to, never goes beyond two to the 26th power, and stays below twice the wish where the
    wish is neither 0 nor beyond that power itself. -/
theorem bucketCount_least :
    (∀ s : Settings, LeastPowerFor (max 1 (min (if s.minBuckets.toNat ≤ s.buckets.toNat then
      s.buckets.toNat else s.vnodes.toNat / 8) (1 <<< 26))) s.bucketCount) ∧
    (∀ wish larger : UInt64, wish ≤ larger → roundBuckets wish ≤ roundBuckets larger) ∧
    (∀ wish, roundBuckets (UInt64.ofNat (roundBuckets wish)) = roundBuckets wish) ∧
    (∀ wish, roundBuckets wish ≤ 1 <<< 26) ∧
    (∀ wish : UInt64, 1 ≤ wish.toNat → wish.toNat ≤ 1 <<< 26 →
      roundBuckets wish < 2 * wish.toNat) := by
  refine ⟨fun s => ?_, fun wish larger le => ?_, fun wish => ?_, fun wish => ?_,
    fun wish pos most => ?_⟩
  · rw [← toNat_bucketWish]
    exact leastPowerFor_leastPower _
  · apply leastPower_mono
    have ordered : wish.toNat ≤ larger.toNat := UInt64.le_iff_toNat_le.mp le
    omega
  · obtain ⟨power, -, most⟩ := roundBuckets_fit wish
    rw [← toNat_roundBuckets] at power most
    rw [roundBuckets_of_isPowerOfTwo power most, toNat_roundBuckets]
  · exact (roundBuckets_fit wish).2.2
  · replace most : wish.toNat ≤ mostBuckets := most
    unfold roundBuckets
    rw [Nat.min_eq_left most, Nat.max_eq_right pos]
    exact leastPower_lt_double pos

/-- A wish of 100 comes to the least power of two from 100 on, and one of 129 to no less. -/
theorem bucketCount_least_of_hundred :
    LeastPowerFor 100 (bucketCount { buckets := 100 }) ∧ roundBuckets 100 ≤ roundBuckets 129 ∧
      roundBuckets 129 < 2 * 129 := by
  obtain ⟨least, mono, -, -, below⟩ := bucketCount_least
  exact ⟨least { buckets := 100 }, mono 100 129 (by decide), below 129 (by decide) (by decide)⟩

end Settings

end NameCache
