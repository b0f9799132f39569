import Mathlib.Algebra.Order.Field.Power
import Mathlib.Tactic.FieldSimp
import Mathlib.Tactic.Linarith
import Mathlib.Tactic.Positivity
import Mathlib.Tactic.Ring
import Reshape.Number.Shortest

/-! Shortest decimals tell numbers apart. The decimal that is written for a number
lies among the reals that round to it. Two numbers share none of these: where the
intervals of neighbours touch, one of the two mantissas is odd, and its interval
does not have its ends. So a decimal is written for one number at most. -/
namespace Reshape.Number

/-- What a decimal stands for. -/
def Decimal.value (d : Decimal) : ℚ := d.digits * 10 ^ d.exponent

theorem power_denominator_pos {base : Nat} (positive : 0 < base) (power : Int) :
    0 < powerDenominator base power := by
  rw [powerDenominator]
  split
  · exact Nat.one_pos
  · exact Nat.pow_pos positive

/-- A power is the quotient of its two factors. -/
theorem power_eq (base : Nat) (power : Int) :
    (base : ℚ) ^ power = powerNumerator base power / powerDenominator base power := by
  rw [powerNumerator, powerDenominator]
  split
  · rename_i whole
    obtain ⟨n, rfl⟩ := Int.eq_ofNat_of_zero_le whole
    simp
  · rename_i fraction
    obtain ⟨n, small⟩ := Int.eq_ofNat_of_zero_le (a := -power) (by omega)
    obtain rfl : power = -n := by omega
    simp

namespace Interval

/-- Whether a number lies in an interval. The ends belong to the closed ones. -/
structure Covers (i : Interval) (v : ℚ) : Prop where
  above : i.low * 2 ^ i.unit ≤ v
  below : v ≤ i.high * 2 ^ i.unit
  inside : i.closed = false → i.low * 2 ^ i.unit < v ∧ v < i.high * 2 ^ i.unit

variable {i : Interval} {digits : Nat} {exponent : Int}

/-- On the common scale of an interval and a grid, a bound and a grid point compare
as they do by themselves. -/
theorem scaled_le_iff (i : Interval) (bound digits : Nat) (exponent : Int) :
    (bound * (i.scales exponent).2 ≤ digits * (i.scales exponent).1 ↔
      (bound : ℚ) * 2 ^ i.unit ≤ digits * 10 ^ exponent) ∧
    (digits * (i.scales exponent).1 ≤ bound * (i.scales exponent).2 ↔
      (digits : ℚ) * 10 ^ exponent ≤ bound * 2 ^ i.unit) := by
  have two : (0 : ℚ) < powerDenominator 2 i.unit :=
    Nat.cast_pos.mpr (power_denominator_pos Nat.two_pos _)
  have ten : (0 : ℚ) < powerDenominator 10 exponent :=
    Nat.cast_pos.mpr (power_denominator_pos (Nat.succ_pos 9) _)
  have powerTwo := power_eq 2 i.unit
  have powerTen := power_eq 10 exponent
  norm_num only [Nat.cast_ofNat] at powerTwo powerTen
  rw [powerTwo, powerTen, ← mul_div_assoc, ← mul_div_assoc, div_le_div_iff₀ two ten,
    div_le_div_iff₀ ten two, scales]
  simp only [← Nat.mul_assoc]
  exact ⟨by exact_mod_cast Iff.rfl, by exact_mod_cast Iff.rfl⟩

theorem covers_of_holds (holds : i.holds exponent digits = true) :
    i.Covers (Decimal.value ⟨digits, exponent⟩) := by
  have low := scaled_le_iff i i.low digits exponent
  have high := scaled_le_iff i i.high digits exponent
  rw [Interval.holds] at holds
  dsimp only at holds
  split at holds
  · rename_i closed
    obtain ⟨above, below⟩ := of_decide_eq_true holds
    exact ⟨low.1.mp above, high.2.mp below, fun opened => by simp [closed] at opened⟩
  · obtain ⟨above, below⟩ := of_decide_eq_true holds
    refine ⟨low.1.mp above.le, high.2.mp below.le, fun _ => ⟨?_, ?_⟩⟩
    · exact lt_of_not_ge fun reached => absurd (low.2.mpr reached) (not_le_of_gt above)
    · exact lt_of_not_ge fun reached => absurd (high.1.mpr reached) (not_le_of_gt below)

/-- A point that is taken from a grid was tested. -/
theorem holds_of_point {tie : Tie} (found : i.point? tie exponent = some digits) :
    i.holds exponent digits = true := by
  rw [point?] at found
  dsimp only at found
  split at found
  · rename_i holds
    cases found
    exact holds
  · split at found
    · rename_i holds
      cases found
      exact holds
    · split at found
      · rename_i holds
        cases found
        exact holds
      · cases found

theorem covers_of_coarsest {tie : Tie} {tries : Nat} {d : Decimal}
    (found : i.coarsest? tie tries exponent = some d) : i.Covers d.value := by
  induction tries generalizing exponent with
  | zero => cases found
  | succ tries ih =>
    rw [coarsest?] at found
    split at found
    · rename_i point
      cases found
      exact covers_of_holds (holds_of_point point)
    · exact ih found

end Interval

/-- The whole decimal of a number leaves nothing out. -/
theorem Decimal.full_value (mantissa : Nat) (exponent : Int) :
    (Decimal.full mantissa exponent).value = mantissa * 2 ^ exponent := by
  rw [Decimal.full, Decimal.value]
  split
  · rename_i whole
    obtain ⟨n, rfl⟩ := Int.eq_ofNat_of_zero_le whole
    simp
  · rename_i fraction
    obtain ⟨n, small⟩ := Int.eq_ofNat_of_zero_le (a := -exponent) (by omega)
    obtain rfl : exponent = -n := by omega
    have ten : (10 : ℚ) ^ n = 5 ^ n * 2 ^ n := by rw [← mul_pow]; norm_num
    simp only [neg_neg, Int.toNat_natCast, Nat.pow_eq, Nat.cast_mul, Nat.cast_pow,
      Nat.cast_ofNat, zpow_neg, zpow_natCast, ten]
    field_simp

variable {mantissa mantissa' : Nat} {exponent exponent' : Int} {v : ℚ}

/-- A number lies inside its own interval. -/
theorem around_covers (positive : 0 < mantissa) :
    (Interval.around mantissa exponent).Covers (mantissa * 2 ^ exponent) := by
  have quarter : (mantissa : ℚ) * 2 ^ exponent = (4 * mantissa : Nat) * 2 ^ (exponent - 2) := by
    have four : (2 : ℚ) ^ exponent = 4 * 2 ^ (exponent - 2) := by
      rw [zpow_sub₀ two_ne_zero]
      norm_num
      ring
    push_cast
    rw [four]
    ring
  have power : (0 : ℚ) < 2 ^ (exponent - 2) := zpow_pos two_pos _
  have low : (Interval.around mantissa exponent).low < 4 * mantissa := by
    rw [Interval.around]
    dsimp only
    split <;> omega
  have high : 4 * mantissa < (Interval.around mantissa exponent).high :=
    Nat.lt_add_of_pos_right Nat.two_pos
  have above := mul_lt_mul_of_pos_right (Nat.cast_lt (α := ℚ).mpr low) power
  have below := mul_lt_mul_of_pos_right (Nat.cast_lt (α := ℚ).mpr high) power
  rw [quarter]
  exact ⟨above.le, below.le, fun _ => ⟨above, below⟩⟩

/-- **The shortest decimal rounds to the number**: it lies in the number's
interval. -/
theorem shortest_covers (tie : Tie) (positive : 0 < mantissa) :
    (Interval.around mantissa exponent).Covers (shortest tie mantissa exponent).value := by
  rw [shortest]
  cases found : (Interval.around mantissa exponent).coarsest? tie 20
      (pointPosition (mantissa * powerNumerator 2 exponent) (powerDenominator 2 exponent)) with
  | some d => exact Interval.covers_of_coarsest found
  | none =>
    rw [Option.getD_none, Decimal.full_value]
    exact around_covers positive

/-- The mantissas and exponents that numbers are taken apart into. A mantissa is
below the hidden bit only with the least exponent. -/
structure Normal (mantissa : Nat) (exponent : Int) : Prop where
  small : mantissa < 2 * hiddenBit
  least : leastExponent ≤ exponent
  hidden : leastExponent < exponent → hiddenBit ≤ mantissa

/-- A number that is covered is positive. -/
theorem pos_of_covered (positive : 0 < mantissa)
    (covers : (Interval.around mantissa exponent).Covers v) : 0 < v := by
  have low : 0 < (Interval.around mantissa exponent).low := by
    rw [Interval.around]
    dsimp only
    split <;> omega
  refine lt_of_lt_of_le ?_ covers.above
  exact mul_pos (Nat.cast_pos.mpr low) (zpow_pos two_pos _)

/-- The interval of a number ends where that of a larger one begins or before, and
before if the ends belong to both. -/
theorem high_le_low (normal : Normal mantissa exponent) (normal' : Normal mantissa' exponent')
    (before : exponent < exponent' ∨ exponent = exponent' ∧ mantissa < mantissa') :
    let i := Interval.around mantissa exponent
    let j := Interval.around mantissa' exponent'
    i.high * (2 : ℚ) ^ i.unit ≤ j.low * 2 ^ j.unit ∧
      (i.closed = true → j.closed = true → i.high * (2 : ℚ) ^ i.unit < j.low * 2 ^ j.unit) := by
  intro i j
  have power : (0 : ℚ) < 2 ^ (exponent - 2) := zpow_pos two_pos _
  have closed : i.closed = true → mantissa % 2 = 0 := of_decide_eq_true
  have closed' : j.closed = true → mantissa' % 2 = 0 := of_decide_eq_true
  have high : i.high = 4 * mantissa + 2 := rfl
  have low : j.low = 4 * mantissa' - if mantissa' = hiddenBit ∧ leastExponent < exponent' then 1
    else 2 := rfl
  obtain ⟨small, least, -⟩ := normal
  rcases before with lower | ⟨rfl, less⟩
  · -- The step of the larger number is at least twice as wide, and its mantissa is full.
    have full := normal'.hidden (least.trans_lt lower)
    have twice : (2 : ℚ) * 2 ^ (exponent - 2) ≤ 2 ^ (exponent' - 2) := by
      rw [← zpow_one_add₀ two_ne_zero]
      exact zpow_le_zpow_right₀ one_le_two (by omega)
    have reach : i.high ≤ 2 * j.low ∧ (i.closed = true → i.high < 2 * j.low) := by
      rw [high, low]
      constructor
      · split <;> simp only [hiddenBit] at * <;> omega
      · intro even
        have := closed even
        split <;> simp only [hiddenBit] at * <;> omega
    have scaled : (2 * j.low : ℚ) * 2 ^ (exponent - 2) ≤ j.low * 2 ^ (exponent' - 2) := by
      calc (2 * j.low : ℚ) * 2 ^ (exponent - 2) = j.low * (2 * 2 ^ (exponent - 2)) := by ring
        _ ≤ j.low * 2 ^ (exponent' - 2) := mul_le_mul_of_nonneg_left twice (Nat.cast_nonneg _)
    refine ⟨(mul_le_mul_of_nonneg_right ?_ power.le).trans scaled, fun even _ =>
      (mul_lt_mul_of_pos_right ?_ power).trans_le scaled⟩
    · exact_mod_cast reach.1
    · exact_mod_cast reach.2 even
  · have reach : i.high ≤ j.low ∧
        (i.closed = true → j.closed = true → i.high < j.low) := by
      rw [high, low]
      constructor
      · split <;> omega
      · intro even even'
        have := closed even
        have := closed' even'
        split <;> omega
    exact ⟨mul_le_mul_of_nonneg_right (Nat.cast_le.mpr reach.1) power.le, fun even even' =>
      mul_lt_mul_of_pos_right (Nat.cast_lt.mpr (reach.2 even even')) power⟩

/-- The intervals of different numbers have no number in common. -/
theorem not_covers_both (normal : Normal mantissa exponent) (normal' : Normal mantissa' exponent')
    (before : exponent < exponent' ∨ exponent = exponent' ∧ mantissa < mantissa')
    (covers : (Interval.around mantissa exponent).Covers v) :
    ¬ (Interval.around mantissa' exponent').Covers v := by
  intro covers'
  obtain ⟨apart, strictly⟩ := high_le_low normal normal' before
  cases closed : (Interval.around mantissa exponent).closed with
  | false => exact absurd ((covers.inside closed).2.trans_le apart) (not_lt_of_ge covers'.above)
  | true =>
    cases closed' : (Interval.around mantissa' exponent').closed with
    | false =>
      exact absurd (covers.below.trans apart) (not_le_of_gt (covers'.inside closed').1)
    | true =>
      exact absurd (covers.below.trans_lt (strictly closed closed'))
        (not_lt_of_ge covers'.above)

/-- **A real rounds to one number**: numbers whose intervals share one are the
same. -/
theorem Normal.eq_of_covers (normal : Normal mantissa exponent)
    (normal' : Normal mantissa' exponent') (covers : (Interval.around mantissa exponent).Covers v)
    (covers' : (Interval.around mantissa' exponent').Covers v) :
    mantissa = mantissa' ∧ exponent = exponent' := by
  rcases lt_trichotomy exponent exponent' with lower | rfl | higher
  · exact absurd covers' (not_covers_both normal normal' (.inl lower) covers)
  · rcases lt_trichotomy mantissa mantissa' with less | rfl | more
    · exact absurd covers' (not_covers_both normal normal' (.inr ⟨rfl, less⟩) covers)
    · exact ⟨rfl, rfl⟩
    · exact absurd covers (not_covers_both normal' normal (.inr ⟨rfl, more⟩) covers')
  · exact absurd covers (not_covers_both normal' normal (.inl higher) covers')

end Reshape.Number
