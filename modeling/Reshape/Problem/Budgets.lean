import Reshape.Number.Numeral

/-! Limits on one run of the search. Times are whole nanoseconds. -/
namespace Reshape

/-- What is wrong with a limit. -/
inductive BudgetError where
  | noTime
  | noSolutions
  | negativeTime (seconds : Float)
  /-- Too long for 64 bits of seconds, or no number at all. -/
  | unboundedTime (seconds : Float)
deriving DecidableEq, Repr

/-- The text of an error. -/
def BudgetError.message (e : BudgetError) : String :=
  "Invalid budget: " ++ match e with
    | .noTime => "time limit must be positive"
    | .noSolutions => "solution limit must be at least 1"
    | .negativeTime seconds => "time limit " ++ Number.positional seconds ++
        ": cannot convert float seconds to Duration: value is negative"
    | .unboundedTime seconds => "time limit " ++ Number.positional seconds ++
        ": cannot convert float seconds to Duration: value is either too big or NaN"

/-- The limits on one run. -/
structure Budgets where
  /-- The most operators in a program. -/
  maxSize : Nat
  timeLimit : Nat
  /-- The search ends once it has accepted this many programs. -/
  solutionLimit : Nat
deriving DecidableEq, Repr

namespace Budgets

/-- The nanoseconds in a second. -/
def second : Nat := 1000000000

/-- Times of this many seconds and more are beyond 64 bits. -/
def secondsEnd : Nat := 0x10000000000000000

/-- Three operators, a minute, one program. -/
def standard : Budgets := ⟨3, 60 * second, 1⟩

/-- Requires limits under which a search can find something. -/
def validate (b : Budgets) : Except BudgetError Unit :=
  if b.timeLimit = 0 then .error .noTime
  else if b.solutionLimit = 0 then .error .noSolutions
  else .ok ()

/-- A time in seconds to the nearest nanosecond, an exact half going to the
even one. -/
def nanoseconds (seconds : Float) : Except BudgetError Nat :=
  match Number.exact seconds with
  | .notANumber => .error (.unboundedTime seconds)
  | .infinite negative =>
    .error (if negative then .negativeTime seconds else .unboundedTime seconds)
  | .finite negative mantissa exponent =>
    if negative ∧ mantissa ≠ 0 then .error (.negativeTime seconds)
    else
      let up := Nat.pow 2 exponent.toNat
      let down := Nat.pow 2 (-exponent).toNat
      if secondsEnd * down ≤ mantissa * up then .error (.unboundedTime seconds)
      else .ok (Number.roundDiv .toEven (mantissa * up * second) down)

end Budgets

/-- A time in seconds with three places. -/
def secondsText (nanoseconds : Nat) : String :=
  let whole := Number.nearest false (nanoseconds / Budgets.second) 1
  let rest := Number.nearest false (nanoseconds % Budgets.second) 1
  Number.fixedPlaces 3 (whole + rest / 1000000000)

/-- A time in the largest unit that it fills, with all its places. -/
def durationText (nanoseconds : Nat) : String :=
  let (unit, places, name) :=
    if Budgets.second ≤ nanoseconds then (Budgets.second, 9, "s")
    else if 1000000 ≤ nanoseconds then (1000000, 6, "ms")
    else if 1000 ≤ nanoseconds then (1000, 3, "µs")
    else (1, 0, "ns")
  let digits := Nat.toDigits 10 (nanoseconds % unit)
  let fraction := Number.zeros (places - digits.length) ++ digits
  let shown := (fraction.reverse.dropWhile (· = '0')).reverse
  toString (nanoseconds / unit) ++
    (if shown = [] ∨ places = 0 then "" else "." ++ String.ofList shown) ++ name

end Reshape
