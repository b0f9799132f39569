import Reshape.Number.Binary

/-! The shortest decimal of a number: the coarsest decimal grid that has a
point among the reals which round to the number, and on it the point nearest
to the number itself. -/
namespace Reshape.Number

/-- The decimal `digits * 10 ^ exponent`. -/
structure Decimal where
  digits : Nat
  exponent : Int
deriving DecidableEq, Repr

/-- The reals that round to one positive number, in a unit small enough for
their ends to be whole: a quarter of the spacing above the number. The ends
belong to it when the mantissa is even. -/
structure Interval where
  value : Nat
  low : Nat
  high : Nat
  closed : Bool
  /-- The unit is two to this power. -/
  unit : Int
deriving DecidableEq, Repr

/-- The interval of `mantissa * 2 ^ exponent`. Below a power of two the
numbers lie twice as close as above it. -/
def Interval.around (mantissa : Nat) (exponent : Int) : Interval where
  value := 4 * mantissa
  low := 4 * mantissa - if mantissa = hiddenBit ∧ leastExponent < exponent then 1 else 2
  high := 4 * mantissa + 2
  closed := mantissa % 2 = 0
  unit := exponent - 2

/-- The factor with which a power is written as a fraction's numerator. -/
def powerNumerator (base : Nat) (power : Int) : Nat :=
  if 0 ≤ power then Nat.pow base power.toNat else 1

/-- The factor with which a power is written as a fraction's denominator. -/
def powerDenominator (base : Nat) (power : Int) : Nat :=
  if 0 ≤ power then 1 else Nat.pow base (-power).toNat

/-- One step of the grid of multiples of `10 ^ exponent` beside one unit of
the interval, on a common whole scale. -/
def Interval.scales (i : Interval) (exponent : Int) : Nat × Nat :=
  (powerNumerator 10 exponent * powerDenominator 2 i.unit,
    powerNumerator 2 i.unit * powerDenominator 10 exponent)

/-- Whether `digits * 10 ^ exponent` lies in the interval. -/
def Interval.holds (i : Interval) (exponent : Int) (digits : Nat) : Bool :=
  let (step, unit) := i.scales exponent
  if i.closed then decide (i.low * unit ≤ digits * step ∧ digits * step ≤ i.high * unit)
  else decide (i.low * unit < digits * step ∧ digits * step < i.high * unit)

/-- The multiple of `10 ^ exponent` in the interval that is nearest to its
number, if there is one. Only the two neighbours of the number need a look,
since the interval has no gap. -/
def Interval.point? (tie : Tie) (i : Interval) (exponent : Int) : Option Nat :=
  let (step, unit) := i.scales exponent
  let down := i.value * unit / step
  let near := roundDiv tie (i.value * unit) step
  if i.holds exponent near then some near
  else if i.holds exponent down then some down
  else if i.holds exponent (down + 1) then some (down + 1)
  else none

/-- The first grid with a point, from `10 ^ exponent` down through `tries`
finer ones. -/
def Interval.coarsest? (tie : Tie) (i : Interval) :
    (tries : Nat) → (exponent : Int) → Option Decimal
  | 0, _ => none
  | tries + 1, exponent =>
    match i.point? tie exponent with
    | some digits => some ⟨digits, exponent⟩
    | none => i.coarsest? tie tries (exponent - 1)

/-- Where the decimal point of a positive fraction stands: the power of ten
just above it, or a power beyond that. -/
def pointPosition (num den : Nat) : Int :=
  if den ≤ num then (Nat.toDigits 10 (num / den)).length
  else 2 - ((Nat.toDigits 10 (den / num)).length : Int)

/-- The whole decimal of `mantissa * 2 ^ exponent`, with nothing left out. -/
def Decimal.full (mantissa : Nat) (exponent : Int) : Decimal :=
  if 0 ≤ exponent then ⟨mantissa * Nat.pow 2 exponent.toNat, 0⟩
  else ⟨mantissa * Nat.pow 5 (-exponent).toNat, exponent⟩

/-- The shortest decimal that rounds to the positive number
`mantissa * 2 ^ exponent`. Seventeen digits always suffice; were they not to,
the whole decimal would be given. -/
def shortest (tie : Tie) (mantissa : Nat) (exponent : Int) : Decimal :=
  let i := Interval.around mantissa exponent
  let start :=
    pointPosition (mantissa * powerNumerator 2 exponent) (powerDenominator 2 exponent)
  (i.coarsest? tie 20 start).getD (.full mantissa exponent)

end Reshape.Number
