import Reshape.Number.Shortest

/-! Numbers as text. A cell's number is written positionally however long it
gets; a number inside a JSON text moves to an exponent when it is very large
or very small; a time in seconds has a fixed number of places. -/
namespace Reshape.Number

/-- `count` zeros. -/
def zeros (count : Nat) : List Char := List.replicate count '0'

/-- The decimal digits of a natural number. -/
def digitsOf (n : Nat) : List Char := Nat.toDigits 10 n

/-- Writes a decimal without an exponent: zeros fill the places between its
digits and the point. -/
def Decimal.positional (d : Decimal) : List Char :=
  let digits := digitsOf d.digits
  if 0 ≤ d.exponent then digits ++ zeros d.exponent.toNat
  else
    let places := (-d.exponent).toNat
    if places < digits.length then
      digits.take (digits.length - places) ++ '.' :: digits.drop (digits.length - places)
    else '0' :: '.' :: zeros (places - digits.length) ++ digits

/-- A minus sign in front, where one is due. -/
def signed (negative : Bool) (text : List Char) : List Char :=
  if negative then '-' :: text else text

/-- A number in the fewest digits that read back to it, always positionally;
of two shortest decimals equally near, the larger. Negative zero keeps its
sign. -/
def positional (x : Float) : String :=
  match exact x with
  | .notANumber => "NaN"
  | .infinite negative => .ofList (signed negative ['i', 'n', 'f'])
  | .finite negative 0 _ => .ofList (signed negative ['0'])
  | .finite negative mantissa exponent =>
    .ofList (signed negative (shortest .up mantissa exponent).positional)

/-- The text of a number in a cell: positional, and zero has no sign. -/
def plain (x : Float) : String := positional (canonical x)

/-- A decimal as JSON writes it: a point always, positionally while the point
falls within sixteen places right or five places left of the first digit, and
otherwise one digit before the point and an exponent, which has a sign always. -/
def Decimal.scientific (d : Decimal) : List Char :=
  let digits := digitsOf d.digits
  let point : Int := digits.length + d.exponent
  if 0 ≤ d.exponent ∧ point ≤ 16 then d.positional ++ ['.', '0']
  else if -5 < point ∧ point ≤ 16 then d.positional
  else
    let power := point - 1
    let mantissa := match digits with
      | first :: second :: rest => first :: '.' :: second :: rest
      | short => short
    mantissa ++ 'e' :: (if power < 0 then '-' else '+') :: digitsOf power.natAbs

/-- A finite number as JSON writes it, of two shortest decimals equally near
the even one. JSON has no word for the others, which are written as null. -/
def scientific (x : Float) : String :=
  match exact x with
  | .finite negative 0 _ => .ofList (signed negative ['0', '.', '0'])
  | .finite negative mantissa exponent =>
    .ofList (signed negative (shortest .toEven mantissa exponent).scientific)
  | _ => "null"

/-- A nonnegative number with exactly `places` decimal places, the exact half
going to the even neighbour. -/
def fixedPlaces (places : Nat) (x : Float) : String :=
  match exact x with
  | .finite _ mantissa exponent =>
    let unit := Nat.pow 10 places
    let rounded :=
      if 0 ≤ exponent then mantissa * unit * Nat.pow 2 exponent.toNat
      else roundDiv .toEven (mantissa * unit) (Nat.pow 2 (-exponent).toNat)
    let digits := digitsOf (rounded % unit)
    .ofList (digitsOf (rounded / unit) ++
      '.' :: zeros (places - digits.length) ++ digits)
  | _ => positional x

end Reshape.Number
