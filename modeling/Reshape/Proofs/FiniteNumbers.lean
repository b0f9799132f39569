import Reshape.Proofs.WholeNumbers
import Reshape.Table.Json

/-! Whole numbers of 64 bits stand for finite numbers: rounded to 53 bits they
stay far below the encodings of the infinities. -/
namespace Reshape.Number

open Float.Model in
/-- An encoding whose exponent is not that of the infinities is of a finite
number. -/
theorem of_bits_finite {bits : UInt64} (below : bits.toNat / hiddenBit % 2048 ≠ 2047) :
    (Float.ofBits bits).isFinite = true := by
  have exponent : @UnpackedFloat.unpackExponent Format.binary64 bits.toBitVec ≠ -1#11 := by
    intro full
    have value := congrArg BitVec.toNat full
    exact below (by
      simpa [UnpackedFloat.unpackExponent, Nat.shiftRight_eq_div_pow, hiddenBit] using value)
  have valid : Format.binary64.Valid bits.toBitVec := ⟨fun full => absurd full exponent⟩
  -- only what is no number changes when it is encoded again
  change (UnpackedFloat.unpack _ (UnpackedFloat.pack _ (UnpackedFloat.unpack _ _))).isFinite = _
  rw [UnpackedFloat.pack_unpack_of_valid valid, UnpackedFloat.unpack, if_neg exponent]
  split
  · split <;> rfl
  · rfl

/-- Magnitudes below that of the infinities are those of finite numbers. -/
theorem of_magnitude_finite (negative : Bool) {magnitude : Nat} (below : magnitude < infinityBits) :
    (ofMagnitude negative magnitude).isFinite = true := by
  have inside : magnitude / hiddenBit < 2047 := (Nat.div_lt_iff_lt_mul (by decide)).mpr below
  refine of_bits_finite ?_
  cases negative <;>
    simp only [infinityBits, hiddenBit, signBit, UInt64.toNat_ofNat', Bool.false_eq_true,
      if_true, if_false] at * <;>
    omega

/-- A whole number of 64 bits is rounded to a finite one: the exponent is 11 at
most, which leaves the encoding far below 2047 steps. -/
theorem nearest_magnitude_lt {n : Nat} (small : n < 2 ^ 64) :
    nearestMagnitude n 1 < infinityBits := by
  rcases Nat.eq_zero_or_pos n with rfl | positive
  · decide
  · have bits : n.log2 < 64 := (Nat.log2_lt positive.ne').mpr small
    obtain ⟨-, most⟩ := leading_bounds positive.ne'
    rw [nearest_magnitude_eq positive.ne']
    refine (Nat.min_le_right _ _).trans_lt ?_
    simp only [hiddenBit, infinityBits] at *
    omega

theorem of_int_finite {n : Int} (small : n.natAbs < 2 ^ 64) : (ofInt n).isFinite = true :=
  of_magnitude_finite _ (nearest_magnitude_lt small)

end Reshape.Number
