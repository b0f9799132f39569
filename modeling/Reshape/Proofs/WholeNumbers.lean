import Mathlib
import Reshape.Number.Binary

/-! Whole numbers as floating point numbers. The number nearest to a whole number
is found by rounding one quotient. The conversion of the binary format goes
another way: it shifts the mantissa bit by bit, keeps of what falls out the two
bits that decide the rounding, rounds, and shifts once more where the carry makes
the mantissa too long. On every whole number the two agree. -/
namespace Reshape.Number

open Float.Model Float.Model.UnpackedFloat

/-- A mantissa and the bits behind it stand for a quotient: the mantissa is its
whole part, the first bit tells whether the rest is half a unit at least, and
the other whether it is neither nothing nor the half. -/
structure StandsFor (em : ExtendedMantissa) (num den : Nat) : Prop where
  whole : em.mantissa = num / den
  half : em.roundBit = true ↔ den ≤ 2 * (num % den)
  rest : em.stickyBit = true ↔ num % den ≠ 0 ∧ 2 * (num % den) ≠ den

namespace StandsFor

variable {em : ExtendedMantissa} {num den : Nat}

theorem exact (n : Nat) : StandsFor (.ofMantissaAndAccuracy n .exact) n 1 where
  whole := (Nat.div_one n).symm
  half := by simp [ExtendedMantissa.ofMantissaAndAccuracy, Nat.mod_one]
  rest := by simp [ExtendedMantissa.ofMantissaAndAccuracy, Nat.mod_one]

/-- One bit less stands for half the quotient. -/
theorem shift_one (stands : StandsFor em num den) (positive : 0 < den) :
    StandsFor em.shiftRightOne num (den * 2) := by
  have small := Nat.mod_lt num positive
  have split : num % (den * 2) = num % den + den * (num / den % 2) := Nat.mod_mul
  refine ⟨?_, ?_, ?_⟩
  · rw [ExtendedMantissa.shiftRightOne, stands.whole, Nat.div_div_eq_div_mul]
  all_goals
    simp only [ExtendedMantissa.shiftRightOne, stands.whole, bne_iff_ne, Bool.or_eq_true,
      stands.half, stands.rest, split]
    rcases Nat.mod_two_eq_zero_or_one (num / den) with parity | parity <;>
      simp only [parity] <;> omega

theorem shift (stands : StandsFor em num den) (positive : 0 < den) (bits : Nat) :
    StandsFor (em >>> bits) num (den * 2 ^ bits) := by
  change StandsFor (bits.repeat ExtendedMantissa.shiftRightOne em) num _
  induction bits with
  | zero => simpa [Nat.repeat] using stands
  | succ bits ih =>
    rw [Nat.repeat, Nat.pow_succ, ← Nat.mul_assoc]
    exact ih.shift_one (Nat.mul_pos positive (Nat.two_pow_pos bits))

/-- The two bits are enough to round the quotient. -/
theorem rounded (stands : StandsFor em num den) (positive : 0 < den) :
    em.roundedMantissa = roundDiv .toEven num den := by
  obtain ⟨mantissa, roundBit, stickyBit⟩ := em
  obtain ⟨whole, half, rest⟩ := stands
  dsimp only at whole half rest
  subst whole
  unfold roundDiv
  cases order : compare (2 * (num % den)) den with
  | lt =>
    have below := Nat.compare_eq_lt.1 order
    have notHalf : roundBit = false := by
      rw [← Bool.not_eq_true, half]
      omega
    subst notHalf
    cases stickyBit <;> rfl
  | gt =>
    have above := Nat.compare_eq_gt.1 order
    obtain rfl := half.mpr (by omega)
    obtain rfl := rest.mpr (by omega)
    rfl
  | eq =>
    have tie := Nat.compare_eq_eq.1 order
    obtain rfl := half.mpr (by omega)
    have notMore : stickyBit = false := by
      rw [← Bool.not_eq_true, rest]
      omega
    subst notMore
    rfl

end StandsFor

/-- Bits that are shifted out without any bits behind are rounded as a quotient. -/
theorem rounded_shift (n bits : Nat) :
    (ExtendedMantissa.ofMantissaAndAccuracy n .exact >>> bits).roundedMantissa =
      roundDiv .toEven n (2 ^ bits) := by
  have stands := (StandsFor.exact n).shift Nat.one_pos bits
  rw [Nat.one_mul] at stands
  exact stands.rounded (Nat.two_pow_pos bits)

/-- The bits that a mantissa is shifted by to have 53 of them. -/
def excess (mantissa : Nat) (exponent : Int) : Nat :=
  (max (mantissa.log2 + exponent - 52) leastExponent - exponent).toNat

theorem target_exponent_eq (mantissa : Nat) (exponent : Int) :
    Format.binary64.targetExponent (totalExponent mantissa exponent) =
      max (mantissa.log2 + exponent - 52) leastExponent := by
  simp only [Format.targetExponent, totalExponent, Format.mantissaBits, Format.minExponent,
    leastExponent]
  omega

theorem shift_to_target_eq (mantissa : Nat) (exponent : Int) :
    shiftToTargetExponent Format.binary64 mantissa exponent .exact =
      (ExtendedMantissa.ofMantissaAndAccuracy mantissa .exact >>> excess mantissa exponent,
        exponent + excess mantissa exponent) := by
  simp only [shiftToTargetExponent, shiftToExponent, target_exponent_eq, excess]

/-- A rounded mantissa of 53 bits stays as it is, and one that a carry has made a
bit longer loses that bit, which is zero. -/
theorem shift_rounded {mantissa : Nat} {exponent : Int} (least : hiddenBit ≤ mantissa)
    (most : mantissa ≤ 2 * hiddenBit) (inside : leastExponent ≤ exponent) :
    ∃ em final, shiftToTargetExponent Format.binary64 mantissa exponent .exact = (em, final) ∧
      em.mantissa.log2 = 52 ∧ exponent ≤ final ∧
      (final - leastExponent).toNat * hiddenBit + em.mantissa =
        (exponent - leastExponent).toNat * hiddenBit + mantissa := by
  refine ⟨_, _, shift_to_target_eq mantissa exponent, ?_⟩
  rw [((StandsFor.exact mantissa).shift Nat.one_pos _).whole, Nat.one_mul]
  rcases Nat.lt_or_eq_of_le most with short | rfl
  · have log : mantissa.log2 = 52 :=
      (Nat.log2_eq_iff (by unfold hiddenBit at least; omega)).mpr ⟨least, short⟩
    have none : excess mantissa exponent = 0 := by
      rw [excess, log]
      omega
    simp [none, log]
  · have log : (2 * hiddenBit).log2 = 53 := by decide +kernel
    have one : excess (2 * hiddenBit) exponent = 1 := by
      rw [excess, log]
      omega
    have half : 2 * hiddenBit / 2 ^ 1 = hiddenBit := by decide +kernel
    rw [one, half]
    refine ⟨by decide +kernel, by omega, ?_⟩
    unfold hiddenBit
    omega

section Whole

variable {n : Nat}

/-- With the bits it lacks behind it, or without those it has too many, a whole
number has 53 bits. -/
theorem scaled_bounds (some : n ≠ 0) :
    hiddenBit * 2 ^ (n.log2 - 52) ≤ n * 2 ^ (52 - n.log2) ∧
      n * 2 ^ (52 - n.log2) < 2 * hiddenBit * 2 ^ (n.log2 - 52) := by
  have least := Nat.log2_self_le some
  have most := Nat.lt_log2_self (n := n)
  have scale : hiddenBit * 2 ^ (n.log2 - 52) = 2 ^ n.log2 * 2 ^ (52 - n.log2) := by
    rw [show hiddenBit = 2 ^ 52 from rfl, ← Nat.pow_add, ← Nat.pow_add]
    congr 1
    omega
  rw [Nat.mul_assoc, scale, ← Nat.mul_assoc, Nat.mul_comm 2, ← Nat.pow_succ]
  exact ⟨Nat.mul_le_mul_right _ least, Nat.mul_lt_mul_of_pos_right most (Nat.two_pow_pos _)⟩

/-- The first 53 bits of a whole number, rounded. -/
def leading (n : Nat) : Nat :=
  roundDiv .toEven (n * 2 ^ (52 - n.log2)) (2 ^ (n.log2 - 52))

theorem leading_bounds (some : n ≠ 0) : hiddenBit ≤ leading n ∧ leading n ≤ 2 * hiddenBit := by
  obtain ⟨least, most⟩ := scaled_bounds some
  obtain ⟨below, above⟩ := roundDiv_near .toEven (n * 2 ^ (52 - n.log2)) (2 ^ (n.log2 - 52))
    (Nat.two_pow_pos _)
  have positive := Nat.two_pow_pos (n.log2 - 52)
  rw [← leading] at below above
  constructor <;> by_contra outside
  · have less := Nat.mul_le_mul_right (2 ^ (n.log2 - 52)) (Nat.lt_of_not_le outside)
    rw [Nat.succ_mul] at less
    omega
  · have more := Nat.mul_le_mul_right (2 ^ (n.log2 - 52)) (Nat.lt_of_not_le outside)
    rw [Nat.succ_mul] at more
    omega

/-- The powers of two in the scale, told by the exponent. -/
theorem scaled_by (n : Nat) : ((n.log2 : Int) - 52).toNat = n.log2 - 52 ∧
    (-((n.log2 : Int) - 52)).toNat = 52 - n.log2 := by
  omega

/-- The numbers around a whole number are so far apart that they have its first 53
bits. -/
theorem spacing_eq (some : n ≠ 0) : spacing n 1 = (n.log2 : Int) - 52 := by
  have one : Nat.log2 1 = 0 := by decide
  obtain ⟨down, up⟩ := scaled_by n
  obtain ⟨least, -⟩ := scaled_bounds some
  have wide : if 0 ≤ (n.log2 : Int) - 52
      then 1 * Nat.pow 2 ((n.log2 : Int) - 52).toNat * hiddenBit ≤ n
      else 1 * hiddenBit ≤ n * Nat.pow 2 (-((n.log2 : Int) - 52)).toNat := by
    simp only [down, up, Nat.pow_eq, Nat.one_mul]
    split
    · rwa [show 52 - n.log2 = 0 by omega, Nat.pow_zero, Nat.mul_one, Nat.mul_comm] at least
    · rwa [show n.log2 - 52 = 0 by omega, Nat.pow_zero, Nat.mul_one] at least
  simp only [spacing, leastExponent, one, Int.sub_zero, Nat.cast_zero, wide, if_true]
  omega

theorem nearest_magnitude_eq (some : n ≠ 0) :
    nearestMagnitude n 1 = min infinityBits ((n.log2 + 1022) * hiddenBit + leading n) := by
  obtain ⟨down, up⟩ := scaled_by n
  have mantissa : (if 0 ≤ (n.log2 : Int) - 52
      then roundDiv .toEven n (1 * Nat.pow 2 ((n.log2 : Int) - 52).toNat)
      else roundDiv .toEven (n * Nat.pow 2 (-((n.log2 : Int) - 52)).toNat) 1) = leading n := by
    simp only [down, up, Nat.pow_eq, Nat.one_mul, leading]
    split
    · rw [show 52 - n.log2 = 0 by omega, Nat.pow_zero, Nat.mul_one]
    · rw [show n.log2 - 52 = 0 by omega, Nat.pow_zero]
  have exponent : ((n.log2 : Int) - 52 - leastExponent).toNat = n.log2 + 1022 := by
    unfold leastExponent
    omega
  simp only [nearestMagnitude, if_neg some, spacing_eq some, mantissa, exponent]

theorem scaled_log2 (some : n ≠ 0) :
    (n * 2 ^ (52 - n.log2)).log2 = 52 + (n.log2 - 52) := by
  refine (Nat.log2_eq_iff (Nat.mul_ne_zero some (Nat.two_pow_pos _).ne')).mpr ?_
  rw [Nat.add_right_comm, Nat.pow_add, Nat.pow_add]
  exact scaled_bounds some

/-- The first shift takes the bits that are too many, and those are rounded. -/
theorem shift_scaled (some : n ≠ 0) :
    ∃ em, shiftToTargetExponent Format.binary64 (n * 2 ^ (52 - n.log2))
        (0 - (52 - n.log2 : Nat)) .exact = (em, (n.log2 : Int) - 52) ∧
      em.roundedMantissa = leading n := by
  have down : excess (n * 2 ^ (52 - n.log2)) (0 - (52 - n.log2 : Nat)) = n.log2 - 52 := by
    rw [excess, scaled_log2 some]
    unfold leastExponent
    omega
  have exponent : 0 - ((52 - n.log2 : Nat) : Int) + (n.log2 - 52 : Nat) = (n.log2 : Int) - 52 := by
    omega
  refine ⟨_, shift_to_target_eq _ _ |>.trans ?_, rounded_shift _ (n.log2 - 52)⟩
  rw [down, exponent]

/-- Rounding a whole number: the bits that it lacks are put behind it, those that
are too many are rounded, and a carry is shifted out. -/
theorem round_whole (some : n ≠ 0) :
    ∃ mantissa exponent positive,
      UnpackedFloat.round Format.binary64 .positive n 0 =
        .finite .positive mantissa exponent positive ∧
      mantissa.log2 = 52 ∧ leastExponent ≤ exponent ∧
      (exponent - leastExponent).toNat * hiddenBit + mantissa =
        (n.log2 + 1022) * hiddenBit + leading n := by
  have above : leastExponent ≤ (n.log2 : Int) - 52 := by
    unfold leastExponent
    omega
  have target : Format.binary64.targetExponent (totalExponent n 0) = (n.log2 : Int) - 52 := by
    rw [target_exponent_eq, Int.add_zero, max_eq_left above]
  have up : (0 - ((n.log2 : Int) - 52)).toNat = 52 - n.log2 := by omega
  obtain ⟨least, most⟩ := leading_bounds some
  obtain ⟨cut, first, rounded⟩ := shift_scaled some
  obtain ⟨em, final, second, long, inside, same⟩ := shift_rounded least most above
  have positive : em.mantissa ≠ 0 := by
    intro zero
    rw [zero] at long
    contradiction
  refine ⟨em.mantissa, final, Nat.pos_of_ne_zero positive, ?_, long, above.trans inside, ?_⟩
  · simp only [UnpackedFloat.round, decreaseExponent, target, up, Nat.shiftLeft_eq,
      roundWithAccuracy, first, rounded, second, dif_neg positive]
  · rw [same]
    unfold leastExponent hiddenBit
    omega

end Whole

theorem components_bits (exponent : BitVec 11) (mantissa : BitVec 52) :
    (packComponents Format.binary64 .positive exponent mantissa).toNat =
      exponent.toNat * hiddenBit + mantissa.toNat := by
  have sign : (Sign.positive.toBitVec ++ exponent).toNat = exponent.toNat := by
    rw [BitVec.toNat_append]
    simp [Sign.toBitVec]
  rw [packComponents, BitVec.toNat_append, sign, ← Nat.shiftLeft_add_eq_or_of_lt mantissa.isLt,
    Nat.shiftLeft_eq, show hiddenBit = 2 ^ 52 from rfl]

theorem infinity_bits : (packedInfinity Format.binary64 .positive).toNat = infinityBits := by
  rw [packedInfinity, components_bits]
  rfl

/-- The encoding of a number with 53 bits. Its leading bit adds one to the field
of the exponent, and from the infinities on every exponent has their encoding. -/
theorem pack_bits {mantissa : Nat} {exponent : Int} {positive : 0 < mantissa}
    (long : mantissa.log2 = 52) (inside : leastExponent ≤ exponent) :
    (UnpackedFloat.pack Format.binary64 (.finite .positive mantissa exponent positive)).toNat =
      min infinityBits ((exponent - leastExponent).toNat * hiddenBit + mantissa) := by
  obtain ⟨least, most⟩ := (Nat.log2_eq_iff positive.ne').mp long
  have biased :
      (exponent + Format.binary64.exponentBias +
        Format.binary64.mantissaBitsWithoutImplicit).toNat =
      (exponent - leastExponent).toNat + 1 := by
    simp only [Format.exponentBias, leastExponent] at inside ⊢
    omega
  simp only [UnpackedFloat.pack, biased, long, Format.mantissaBits, if_true]
  generalize (exponent - leastExponent).toNat = field
  split
  next large =>
    rw [infinity_bits]
    simp only [infinityBits, hiddenBit] at *
    omega
  next small =>
    rw [components_bits, BitVec.toNat_ofNat, BitVec.toNat_ofNat]
    simp only [infinityBits, hiddenBit] at *
    omega

/-- The encoding that a number is packed into is the one of that number. -/
theorem of_bits_pack (f : UnpackedFloat) :
    Float.ofBits (Float.Model.pack f).toBits = ⟨Float.Model.pack f⟩ := by
  have again : UnpackedFloat.pack Format.binary64 (UnpackedFloat.unpack Format.binary64
      (UnpackedFloat.pack Format.binary64 f)) = UnpackedFloat.pack Format.binary64 f :=
    UnpackedFloat.pack_unpack_of_valid valid_pack
  refine congrArg Float.ofModel ?_
  simp only [Float.Model.ofBits, Float.Model.pack, UInt64.toBitVec_ofBitVec, again]

theorem of_magnitude_pack (f : UnpackedFloat) :
    ofMagnitude false (UnpackedFloat.pack Format.binary64 f).toNat = ⟨Float.Model.pack f⟩ := by
  have same : UInt64.ofNat (UnpackedFloat.pack Format.binary64 f).toNat =
      (Float.Model.pack f).toBits := by
    rw [Float.Model.pack, ← UInt64.toBitVec_inj, UInt64.toBitVec_ofNat', BitVec.ofNat_toNat,
      UInt64.toBitVec_ofBitVec]
    exact BitVec.setWidth_eq _
  rw [ofMagnitude, if_neg Bool.false_ne_true, Nat.add_zero, same, of_bits_pack]

theorem of_nat_eq_round {n : Nat} (positive : 0 < n) :
    UnpackedFloat.ofNat Format.binary64 n = UnpackedFloat.round Format.binary64 .positive n 0 := by
  have greater : compare (n : Int) 0 = .gt := by
    rw [compare_gt_iff_gt]
    exact Int.natCast_pos.mpr positive
  simp only [UnpackedFloat.ofNat, UnpackedFloat.ofInt, UnpackedFloat.normalize, greater,
    Int.toNat_natCast]

/-- **The number nearest to a whole number is its conversion.** -/
theorem nearest_whole (n : Nat) : nearest false n 1 = ⟨Float.Model.ofNat n⟩ := by
  rcases Nat.eq_zero_or_pos n with rfl | positive
  · rfl
  · obtain ⟨mantissa, exponent, some, rounded, long, inside, same⟩ := round_whole positive.ne'
    have magnitude : nearestMagnitude n 1 = (UnpackedFloat.pack Format.binary64
        (UnpackedFloat.ofNat Format.binary64 n)).toNat := by
      rw [of_nat_eq_round positive, rounded, pack_bits long inside, same,
        nearest_magnitude_eq positive.ne']
    rw [nearest, magnitude, of_magnitude_pack, Float.Model.ofNat]

end Reshape.Number
