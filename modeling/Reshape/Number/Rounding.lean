/-! Rounding a quotient of natural numbers to a whole number. Everything that
rounds in this library — reading a decimal, naming a duration, comparing two
cells — is this one operation with a rule for the exact half. -/
namespace Reshape.Number

/-- What becomes of a value exactly halfway between two whole numbers. -/
inductive Tie where
  /-- The even neighbour is taken. -/
  | toEven
  /-- The larger neighbour is taken. -/
  | up
deriving DecidableEq, Repr

/-- The whole number nearest to `num / den`, the half going where `tie` says. -/
def roundDiv (tie : Tie) (num den : Nat) : Nat :=
  let whole := num / den
  match compare (2 * (num % den)) den with
  | .lt => whole
  | .gt => whole + 1
  | .eq =>
    match tie with
    | .up => whole + 1
    | .toEven => whole + whole % 2

/-- Rounding stays within half a unit: twice the distance is at most the
denominator, on either side. -/
theorem roundDiv_near (tie : Tie) (num den : Nat) (positive : 0 < den) :
    2 * (roundDiv tie num den * den) ≤ 2 * num + den ∧
      2 * num ≤ 2 * (roundDiv tie num den * den) + den := by
  have split := Nat.div_add_mod num den
  have small := Nat.mod_lt num positive
  have next : (num / den + 1) * den = num / den * den + den := by
    rw [Nat.add_mul, Nat.one_mul]
  rw [Nat.mul_comm] at split
  unfold roundDiv
  cases order : compare (2 * (num % den)) den with
  | lt =>
    have := Nat.compare_eq_lt.1 order
    simp only
    omega
  | gt =>
    have := Nat.compare_eq_gt.1 order
    simp only [next]
    omega
  | eq =>
    have := Nat.compare_eq_eq.1 order
    cases tie with
    | up =>
      simp only [next]
      omega
    | toEven =>
      rcases Nat.mod_two_eq_zero_or_one (num / den) with even | odd
      · simp only [even, Nat.add_zero]
        omega
      · simp only [odd, next]
        omega

end Reshape.Number
