/-
  What the hash of a name keeps of the name and of the directory.

  1. **Steps that can be undone.**  A product with an odd number can, because the number has an
     inverse.  So can the exclusive or of a word with itself shifted down (`folded`): two such
     steps are one of twice the distance (`folded_folded`), and one of the whole width does
     nothing, so doubling the distance leads from any step to one that is undone already.
  2. **Directories** (`mixing_loses_the_cut`).  The mixing is six steps of these two kinds, so no
     two numbers are mixed alike, and all that is lost is the upper half that is cut off.
  3. **Names** (`ofName_ne_of_one_byte`).  Each byte takes the digest so far to another one, and no
     two digests to the same.  Where two names part for one byte, so do their digests, and the
     bytes after it, which are the same, cannot bring them together again.
-/
import Mathlib.Data.FinEnum
import Mathlib.Data.LawfulXor.Basic
import Mathlib.Data.UInt
import Mathlib.SetTheory.Cardinal.Finite
import NameCache.Digest

namespace NameCache.Digest

/-! ## A word folded upon itself -/

section Folded

variable {w : Nat}

/-- A word in exclusive or with itself shifted down. -/
def folded (k : Nat) (x : BitVec w) : BitVec w := x ^^^ x >>> k

/-- Twice at one distance is once at twice the distance. -/
theorem folded_folded (k : Nat) (x : BitVec w) : folded k (folded k x) = folded (k + k) x := by
  unfold folded
  rw [BitVec.ushiftRight_xor_distrib, ← BitVec.shiftRight_add, BitVec.xor_assoc,
    ← BitVec.xor_assoc (x >>> k), BitVec.xor_self, BitVec.zero_xor]

theorem folded_of_le {k : Nat} (wide : w ≤ k) (x : BitVec w) : folded k x = x := by
  unfold folded
  rw [BitVec.ushiftRight_eq_zero wide, BitVec.xor_zero]

theorem folded_injective {k : Nat} (pos : 0 < k) :
    Function.Injective (folded k : BitVec w → BitVec w) := by
  intro x y same
  by_cases wide : w ≤ k
  · rw [folded_of_le wide, folded_of_le wide] at same
    exact same
  · have twice : Function.Injective (folded (k + k) : BitVec w → BitVec w) :=
      folded_injective (by omega)
    apply twice
    rw [← folded_folded, ← folded_folded, same]
termination_by w - k
decreasing_by omega

end Folded

/-! ## Mixing -/

theorem xorShift_injective {k : UInt64} (pos : 0 < k.toNat) (small : k.toNat < 64) :
    Function.Injective fun x : UInt64 => x ^^^ x >>> k := by
  intro x y same
  have bits (x : UInt64) : (x ^^^ x >>> k).toBitVec = folded k.toNat x.toBitVec := by
    have distance : (k.toBitVec % 64).toNat = k.toNat := Nat.mod_eq_of_lt small
    rw [UInt64.toBitVec_xor, UInt64.toBitVec_shiftRight, BitVec.ushiftRight_eq', distance, folded]
  apply UInt64.toBitVec_inj.mp
  apply folded_injective pos
  rw [← bits, ← bits]
  exact congrArg UInt64.toBitVec same

theorem mul_injective {m : UInt64} (inverse : UInt64) (unit : m * inverse = 1) :
    Function.Injective fun x : UInt64 => x * m :=
  (IsUnit.of_mul_eq_one inverse unit).mul_left_injective

/-- The first step is a product, and one less. -/
theorem not_add_shiftLeft (id : UInt64) :
    ~~~id + (id <<< 18) = id * 262143 + 18446744073709551615 := by
  have bound := id.toNat_lt
  apply UInt64.toNat_inj.mp
  rw [UInt64.toNat_add, UInt64.toNat_not, UInt64.toNat_shiftLeft, UInt64.toNat_add,
    UInt64.toNat_mul, Nat.shiftLeft_eq]
  show (18446744073709551615 - id.toNat + id.toNat * 262144 % 18446744073709551616) %
      18446744073709551616 =
    (id.toNat * 262143 % 18446744073709551616 + 18446744073709551615) % 18446744073709551616
  omega

theorem not_add_shiftLeft_injective : Function.Injective fun id : UInt64 => ~~~id + (id <<< 18) := by
  intro x y same
  simp only [not_add_shiftLeft, UInt64.add_left_inj] at same
  exact mul_injective 18428729606480330751 (by decide) same

/-- The last product is made by a shift. -/
theorem add_shiftLeft (d : UInt64) : d + (d <<< 6) = d * 65 := by
  apply UInt64.toNat_inj.mp
  rw [UInt64.toNat_add, UInt64.toNat_shiftLeft, UInt64.toNat_mul, Nat.shiftLeft_eq]
  show (d.toNat + d.toNat * 64 % 18446744073709551616) % 18446744073709551616 =
    d.toNat * 65 % 18446744073709551616
  omega

theorem add_shiftLeft_injective : Function.Injective fun d : UInt64 => d + (d <<< 6) := by
  intro x y same
  simp only [add_shiftLeft] at same
  exact mul_injective 1135184250689818561 (by decide) same

/-- No two numbers are mixed alike, before the cut. -/
theorem mixWide_injective : Function.Injective mixWide := by
  have first : Function.Injective fun a : UInt64 => a ^^^ a >>> 31 :=
    xorShift_injective (by decide) (by decide)
  have scaled : Function.Injective fun b : UInt64 => b * 21 :=
    mul_injective 14933078535860113213 (by decide)
  have second : Function.Injective fun c : UInt64 => c ^^^ c >>> 11 :=
    xorShift_injective (by decide) (by decide)
  have third : Function.Injective fun e : UInt64 => e ^^^ e >>> 22 :=
    xorShift_injective (by decide) (by decide)
  exact third.comp (add_shiftLeft_injective.comp (second.comp (scaled.comp
    (first.comp not_add_shiftLeft_injective))))

theorem mixWide_bijective : Function.Bijective mixWide :=
  Finite.injective_iff_bijective.mp mixWide_injective

/-! ## The cut -/

/-- A word of its upper and its lower half. -/
def joined (upper lower : UInt32) : UInt64 := upper.toUInt64 * 4294967296 + lower.toUInt64

theorem toNat_joined (upper lower : UInt32) :
    (joined upper lower).toNat = upper.toNat * 4294967296 + lower.toNat := by
  have upper_lt := upper.toNat_lt
  have lower_lt := lower.toNat_lt
  unfold joined
  rw [UInt64.toNat_add, UInt64.toNat_mul, UInt32.toNat_toUInt64, UInt32.toNat_toUInt64]
  show (upper.toNat * 4294967296 % 18446744073709551616 + lower.toNat) % 18446744073709551616 = _
  omega

theorem toNat_upper (word : UInt64) :
    (word >>> 32).toUInt32.toNat = word.toNat / 4294967296 := by
  have bound := word.toNat_lt
  rw [UInt64.toNat_toUInt32, UInt64.toNat_shiftRight, Nat.shiftRight_eq_div_pow]
  show word.toNat / 4294967296 % 4294967296 = _
  omega

theorem toUInt32_joined (upper lower : UInt32) : (joined upper lower).toUInt32 = lower := by
  have lower_lt := lower.toNat_lt
  apply UInt32.toNat_inj.mp
  rw [UInt64.toNat_toUInt32, toNat_joined]
  omega

theorem upper_joined (upper lower : UInt32) : (joined upper lower >>> 32).toUInt32 = upper := by
  have lower_lt := lower.toNat_lt
  apply UInt32.toNat_inj.mp
  rw [toNat_upper, toNat_joined]
  omega

theorem joined_halves (word : UInt64) : joined (word >>> 32).toUInt32 word.toUInt32 = word := by
  apply UInt64.toNat_inj.mp
  rw [toNat_joined, toNat_upper, UInt64.toNat_toUInt32]
  omega

/-- A word with a given lower half is its upper half. -/
def upperHalf (x : UInt32) : { word : UInt64 // word.toUInt32 = x } ≃ UInt32 where
  toFun word := (word.val >>> 32).toUInt32
  invFun upper := ⟨joined upper x, toUInt32_joined upper x⟩
  left_inv := by
    rintro ⟨word, rfl⟩
    exact Subtype.ext (joined_halves word)
  right_inv upper := upper_joined upper x

theorem card_lowerHalf (x : UInt32) :
    Nat.card { word : UInt64 // word.toUInt32 = x } = 2 ^ 32 := by
  rw [Nat.card_congr (upperHalf x), Nat.card_eq_fintype_card, ← FinEnum.card_eq_fintypeCard,
    FinEnum.card_UInt32]

theorem card_mix (x : UInt32) : Nat.card { id : UInt64 // mix id = x } = 2 ^ 32 := by
  rw [← card_lowerHalf x]
  exact Nat.card_congr ((Equiv.ofBijective mixWide mixWide_bijective).subtypeEquiv fun id => Iff.rfl)

/-- Mixing is a bijection of 64-bit numbers until it is cut, so the cut alone loses something: every
    32-bit number is what 2^32 numbers are mixed to, and every hash is the hash of a name, whatever
    the name, in 2^32 directories. -/
theorem mixing_loses_the_cut :
    Function.Bijective mixWide ∧
    (∀ x : UInt32, Nat.card { id : UInt64 // mix id = x } = 2 ^ 32) ∧
    ∀ (name : Bytes) (x : UInt32), Nat.card { id : UInt64 // ofName id name = x } = 2 ^ 32 := by
  refine ⟨mixWide_bijective, card_mix, fun name x => ?_⟩
  rw [← card_mix (x ^^^ ofBytes name)]
  apply Nat.card_congr
  apply Equiv.subtypeEquivRight
  intro id
  exact xor_eq_iff_left_eq _ _ _

/-! ## Names -/

/-- A digest after one more byte. -/
def absorb (h : UInt32) (b : UInt8) : UInt32 := h * 33 + b.toUInt32

theorem ofBytes_eq (bytes : Bytes) :
    ofBytes bytes = bytes.foldl absorb (5381 * UInt32.ofNat bytes.length) := rfl

/-- A byte does not take two digests to one. -/
theorem absorb_injective (b : UInt8) : Function.Injective fun h => absorb h b := by
  intro h h' same
  have unit : IsUnit (33 : UInt32) := .of_mul_eq_one 1041204193 (by decide)
  exact unit.mul_left_injective ((UInt32.add_left_inj _).mp same)

/-- Two bytes do not take a digest to one. -/
theorem absorb_byte_injective (h : UInt32) : Function.Injective (absorb h) :=
  fun _ _ same => UInt8.toUInt32_inj.mp ((UInt32.add_right_inj _).mp same)

/-- Bytes do not take two digests to one, however many they are. -/
theorem foldl_absorb_injective (bytes : Bytes) :
    Function.Injective fun h => bytes.foldl absorb h := by
  induction bytes with
  | nil => exact Function.injective_id
  | cons b rest ih => exact ih.comp (absorb_injective b)

theorem ofBytes_ne {a b : UInt8} (front rest : Bytes) (differ : a ≠ b) :
    ofBytes (front ++ a :: rest) ≠ ofBytes (front ++ b :: rest) := by
  intro same
  have length : (front ++ a :: rest).length = (front ++ b :: rest).length := by
    rw [List.length_append, List.length_append, List.length_cons, List.length_cons]
  rw [ofBytes_eq, ofBytes_eq, length, List.foldl_append, List.foldl_append, List.foldl_cons,
    List.foldl_cons] at same
  exact differ (absorb_byte_injective _ (foldl_absorb_injective rest same))

/-- Byte strings that differ at one position only part there and meet again after it. -/
theorem split_at_difference {xs ys : Bytes} {i : Nat} (length : xs.length = ys.length)
    (differ : xs[i]? ≠ ys[i]?) (same : ∀ j, j ≠ i → xs[j]? = ys[j]?) :
    ∃ front a b rest, a ≠ b ∧ xs = front ++ a :: rest ∧ ys = front ++ b :: rest := by
  have inside : i < xs.length := by
    apply Nat.lt_of_not_le
    intro beyond
    apply differ
    rw [List.getElem?_eq_none beyond, List.getElem?_eq_none (length ▸ beyond)]
  have inside_too : i < ys.length := length ▸ inside
  have front : xs.take i = ys.take i := by
    apply List.ext_getElem?
    intro j
    rw [List.getElem?_take, List.getElem?_take]
    by_cases before : j < i
    · rw [if_pos before, if_pos before, same j (by omega)]
    · rw [if_neg before, if_neg before]
  have rest : xs.drop (i + 1) = ys.drop (i + 1) := by
    apply List.ext_getElem?
    intro j
    rw [List.getElem?_drop, List.getElem?_drop, same _ (by omega)]
  refine ⟨xs.take i, xs[i], ys[i], xs.drop (i + 1), ?_, ?_, ?_⟩
  · intro equal
    apply differ
    rw [List.getElem?_eq_getElem inside, List.getElem?_eq_getElem inside_too, equal]
  · rw [← List.drop_eq_getElem_cons inside, List.take_append_drop]
  · rw [front, rest, ← List.drop_eq_getElem_cons inside_too, List.take_append_drop]

/-- Names of equal length that differ in one byte have different hashes in each directory. -/
theorem ofName_ne_of_one_byte {xs ys : Bytes} {i : Nat} (dir : UInt64)
    (length : xs.length = ys.length) (differ : xs[i]? ≠ ys[i]?)
    (same : ∀ j, j ≠ i → xs[j]? = ys[j]?) : ofName dir xs ≠ ofName dir ys := by
  obtain ⟨front, a, b, rest, apart, rfl, rfl⟩ := split_at_difference length differ same
  intro collide
  exact ofBytes_ne front rest apart ((UInt32.xor_right_inj _).mp collide)

/-- Two names that part in the middle and go on alike. -/
theorem ofName_ne_of_one_byte_inside :
    ofName 7 [0x61, 0x62, 0x63] ≠ ofName 7 [0x61, 0x78, 0x63] := by
  refine ofName_ne_of_one_byte (i := 1) 7 (by decide) (by decide) ?_
  intro j other
  rcases j with _ | _ | j
  · rfl
  · exact absurd rfl other
  · rfl

end NameCache.Digest
