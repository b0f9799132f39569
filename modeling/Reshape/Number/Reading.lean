import Reshape.Number.Binary

/-! Numbers read from text: an optional sign, decimal digits with an optional
point among, before or behind them, and an optional power of ten; or one of
the words for infinity and for no number, in any case. The whole text has to
be the number, and the nearest number is its value. -/
namespace Reshape.Number

/-- The digits a text starts with, and what follows them. -/
def takeDigits (text : List Char) : List Char × List Char :=
  (text.takeWhile Char.isDigit, text.dropWhile Char.isDigit)

/-- Whether a text starts with a minus sign, and what follows its sign. -/
def takeSign : List Char → Bool × List Char
  | '-' :: rest => (true, rest)
  | '+' :: rest => (false, rest)
  | text => (false, text)

/-- A natural number written with digits alone, at least one of them. -/
def natural? (text : List Char) : Option Nat :=
  if text ≠ [] ∧ text.all Char.isDigit then some (Nat.ofDigitChars 10 text 0) else none

/-- A whole number with an optional sign. -/
def whole? (text : List Char) : Option Int :=
  let (negative, digits) := takeSign text
  (natural? digits).map fun n => if negative then -(n : Int) else n

/-- The power of ten behind the digits, none being the power zero. -/
def power? : List Char → Option Int
  | [] => some 0
  | c :: rest => if c = 'e' ∨ c = 'E' then whole? rest else none

/-- A decimal without its sign. -/
def decimal? (negative : Bool) (text : List Char) : Option Float :=
  let (whole, rest) := takeDigits text
  let (fraction, rest) := match rest with
    | '.' :: after => takeDigits after
    | rest => ([], rest)
  if whole = [] ∧ fraction = [] then none
  else (power? rest).map fun power =>
    nearestDecimal negative (Nat.ofDigitChars 10 (whole ++ fraction) 0) (power - fraction.length)

/-- The word for what is no number, or for infinity, in any case. -/
def word? (negative : Bool) (text : List Char) : Option Float :=
  let lower := String.ofList (text.map Char.toLower)
  if lower = "nan" then some (.ofBits 0x7ff8000000000000)
  else if lower = "inf" ∨ lower = "infinity" then some (ofMagnitude negative infinityBits)
  else none

/-- The number that a text stands for, if all of it is one. -/
def ofText? (text : List Char) : Option Float :=
  let (negative, rest) := takeSign text
  (word? negative rest).or (decimal? negative rest)

end Reshape.Number
