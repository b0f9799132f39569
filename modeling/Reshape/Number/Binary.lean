import Reshape.Number.Rounding

/-! What a 64-bit floating point number stands for, and the number nearest to
a fraction. Both directions are exact arithmetic on natural numbers, so texts
that are written and read again can be compared without any claim about the
machine's own conversions. -/
namespace Reshape.Number

/-- The value of a number. A finite one is `mantissa * 2 ^ exponent`, with a
sign that zero carries too. -/
inductive Exact where
  | notANumber
  | infinite (negative : Bool)
  | finite (negative : Bool) (mantissa : Nat) (exponent : Int)
deriving DecidableEq, Repr

/-- Mantissas of normal numbers run from here to twice this. -/
def hiddenBit : Nat := 0x10000000000000

/-- Encodings of negative numbers start here. -/
def signBit : Nat := 0x8000000000000000

/-- The spacing of the smallest numbers is two to this power. -/
def leastExponent : Int := -1074

/-- Takes a number apart into sign, mantissa and exponent. -/
def exact (x : Float) : Exact :=
  let bits := x.toBits.toNat
  let negative := decide (signBit ≤ bits)
  let biased := bits / hiddenBit % 2048
  let fraction := bits % hiddenBit
  if biased = 2047 then
    if fraction = 0 then .infinite negative else .notANumber
  else if biased = 0 then .finite negative fraction leastExponent
  else .finite negative (hiddenBit + fraction) (leastExponent + (biased - 1 : Nat))

/-- The encoding of positive infinity, above that of every finite number. -/
def infinityBits : Nat := 2047 * hiddenBit

/-- The number with this sign and this encoding of its magnitude. -/
def ofMagnitude (negative : Bool) (magnitude : Nat) : Float :=
  .ofBits (UInt64.ofNat (magnitude + if negative then signBit else 0))

/-- The exponent of the numbers around `num / den`: the least one, never
below `leastExponent`, at which the quotient needs no more than 53 bits. -/
def spacing (num den : Nat) : Int :=
  let guess : Int := (num.log2 : Int) - (den.log2 : Int) - 52
  let wide := if 0 ≤ guess then den * Nat.pow 2 guess.toNat * hiddenBit ≤ num
    else den * hiddenBit ≤ num * Nat.pow 2 (-guess).toNat
  max leastExponent (if wide then guess else guess - 1)

/-- The encoding of the nonnegative number nearest to `num / den`, of two
equally near the one with the even mantissa. Rounding up past the last
mantissa carries into the exponent, and past the last number to infinity. -/
def nearestMagnitude (num den : Nat) : Nat :=
  if num = 0 then 0
  else
    let exponent := spacing num den
    let mantissa :=
      if 0 ≤ exponent then roundDiv .toEven num (den * Nat.pow 2 exponent.toNat)
      else roundDiv .toEven (num * Nat.pow 2 (-exponent).toNat) den
    min infinityBits ((exponent - leastExponent).toNat * hiddenBit + mantissa)

/-- The number nearest to `num / den` with the sign put in front. -/
def nearest (negative : Bool) (num den : Nat) : Float :=
  ofMagnitude negative (nearestMagnitude num den)

/-- The number nearest to `digits * 10 ^ exponent`. Decimals beyond every
number's reach are decided by their length, so that a huge exponent costs
nothing. -/
def nearestDecimal (negative : Bool) (digits : Nat) (exponent : Int) : Float :=
  let length : Int := ((Nat.toDigits 10 digits).length : Int) + exponent
  if digits = 0 ∨ length < -330 then ofMagnitude negative 0
  else if 330 < length then ofMagnitude negative infinityBits
  else if 0 ≤ exponent then nearest negative (digits * Nat.pow 10 exponent.toNat) 1
  else nearest negative digits (Nat.pow 10 (-exponent).toNat)

/-- Both zeros become the positive one. What is left differs in value wherever
it differs at all, so equality of canonical numbers is equality of values. -/
def canonical (x : Float) : Float :=
  match exact x with
  | .finite _ 0 _ => 0
  | _ => x

/-- The whole number nearest to `x`, a half going away from zero. -/
def wholeNearest (x : Float) : Float :=
  match exact x with
  | .finite negative mantissa exponent =>
    if 0 ≤ exponent then x
    else nearest negative (roundDiv .up mantissa (Nat.pow 2 (-exponent).toNat)) 1
  | _ => x

/-- `x` to five decimal places, as the scaled arithmetic of the numbers
themselves gives it, and without a sign on zero. -/
def fivePlaces (x : Float) : Float :=
  canonical (wholeNearest (x * 100000) / 100000)

end Reshape.Number
