import Reshape.Json.Basic
import Reshape.Number.Reading

/-! The tokens of a JSON text. Blanks between tokens are dropped; a text with
anything else outside the grammar of tokens has none. -/
namespace Reshape.Json

/-- A token. A number is the value it stands for already. -/
inductive Token where
  | openList
  | closeList
  | openObject
  | closeObject
  | comma
  | colon
  | null
  | boolean (value : Bool)
  | integer (value : Int)
  | decimal (value : Float)
  | text (value : String)
deriving DecidableEq, Repr

/-! ## Texts -/

/-- What stands between the quotes, piece by piece: a character, or a unit of
UTF-16 given by its code. -/
inductive Piece where
  | char (c : Char)
  | unit (code : Nat)
deriving DecidableEq, Repr

/-- The value of four hexadecimal digits. -/
def hexFour? (digits : List Char) : Option Nat :=
  digits.foldlM (fun n c =>
    if c.isDigit then some (16 * n + (c.toNat - '0'.toNat))
    else if 'a' ≤ c ∧ c ≤ 'f' then some (16 * n + (c.toNat - 'a'.toNat + 10))
    else if 'A' ≤ c ∧ c ≤ 'F' then some (16 * n + (c.toNat - 'A'.toNat + 10))
    else none) 0

/-- The character that stands for itself or for another behind a backslash. -/
def unescape? : Char → Option Char
  | '"' => some '"'
  | '\\' => some '\\'
  | '/' => some '/'
  | 'b' => some '\x08'
  | 'f' => some '\x0c'
  | 'n' => some '\n'
  | 'r' => some '\r'
  | 't' => some '\t'
  | _ => none

/-- The pieces up to the closing quote, and what follows the quote. -/
def pieces? : List Char → Option (List Piece × List Char)
  | [] => none
  | '"' :: rest => some ([], rest)
  | '\\' :: 'u' :: a :: b :: c :: d :: rest => do
    let code ← hexFour? [a, b, c, d]
    let (pieces, rest) ← pieces? rest
    return (.unit code :: pieces, rest)
  | '\\' :: c :: rest => do
    let c ← unescape? c
    let (pieces, rest) ← pieces? rest
    return (.char c :: pieces, rest)
  | c :: rest =>
    if c.toNat < 0x20 then none
    else do
      let (pieces, rest) ← pieces? rest
      return (.char c :: pieces, rest)

/-- The characters of the pieces. Two surrogate units make one character, and
one alone makes none. -/
def characters? : List Piece → Option (List Char)
  | [] => some []
  | .char c :: rest => (characters? rest).map (c :: ·)
  | .unit high :: .unit low :: rest =>
    if 0xd800 ≤ high ∧ high < 0xdc00 then
      if 0xdc00 ≤ low ∧ low < 0xe000 then
        (characters? rest).map
          (Char.ofNat (0x10000 + (high - 0xd800) * 0x400 + (low - 0xdc00)) :: ·)
      else none
    else if 0xdc00 ≤ high ∧ high < 0xe000 then none
    else (characters? (.unit low :: rest)).map (Char.ofNat high :: ·)
  | .unit code :: rest =>
    if 0xd800 ≤ code ∧ code < 0xe000 then none
    else (characters? rest).map (Char.ofNat code :: ·)

/-! ## Numbers -/

/-- The largest value of 64 bits without a sign. -/
def largestWord : Nat := 0xffffffffffffffff

/-- The magnitude of the least value of 64 bits with a sign. -/
def mostNegative : Nat := 0x8000000000000000

/-- Ten to a power, as a number. -/
def tenTo (power : Nat) : Float := Number.nearest false (Nat.pow 10 power) 1

/-- Divides by a power of ten that may lie beyond all numbers, in steps that do
not. Two steps take every number that comes from 64 bits to zero. -/
def shrink : (steps : Nat) → Float → (power : Nat) → Float
  | 0, x, _ => x
  | steps + 1, x, power =>
    if power ≤ 308 then x / tenTo power else shrink steps (x / tenTo 308) (power - 308)

/-- The number for leading digits and a power of ten: the digits as a number,
then multiplied or divided by the power. A result beyond all numbers is
refused. -/
def scaled? (digits : Nat) (power : Int) : Option Float :=
  let x := Number.nearest false digits 1
  if power < 0 then some (shrink 3 x power.natAbs)
  else if digits = 0 then some x
  else if power ≤ 308 then (some (x * tenTo power.toNat)).filter Float.isFinite
  else none

/-- Leading digits with the power of ten behind them. Of the whole part, the
digits from the first that does not fit into 64 bits only raise the power. -/
def wholeDigits (digits : List Char) : Nat × Int :=
  let rec go (n : Nat) : List Char → Nat × Int
    | [] => (n, 0)
    | c :: rest =>
      let next := 10 * n + (c.toNat - '0'.toNat)
      if next ≤ largestWord then go next rest else (n, rest.length + 1)
  go 0 digits

/-- Of the fraction, the digits from the first that does not fit into 64 bits
are dropped. -/
def fractionDigits (n : Nat) (power : Int) : List Char → Nat × Int
  | [] => (n, power)
  | c :: rest =>
    let next := 10 * n + (c.toNat - '0'.toNat)
    if next ≤ largestWord then fractionDigits next (power - 1) rest else (n, power)

/-- A number without fraction and power: kept exactly where 64 bits hold it,
with a sign if it has one. Negative zero is not such a number. -/
def integer? (negative : Bool) (digits : List Char) : Option Int :=
  let n := Nat.ofDigitChars 10 digits 0
  if negative then if 0 < n ∧ n ≤ mostNegative then some (-(n : Int)) else none
  else if n ≤ largestWord then some n else none

/-- The number that a text starts with, and what follows. -/
def number? (chars : List Char) : Option (Token × List Char) := do
  let (negative, chars) := match chars with
    | '-' :: rest => (true, rest)
    | chars => (false, chars)
  let (whole, rest) := match chars with
    | '0' :: rest => (['0'], rest)
    | chars => Number.takeDigits chars
  if whole = [] then none
  let (n, power) := wholeDigits whole
  let (fraction, rest) ← match rest with
    | '.' :: after =>
      let (fraction, rest) := Number.takeDigits after
      if fraction = [] then none else some (some fraction, rest)
    | rest => some (none, rest)
  let (n, power) := match fraction with
    | some fraction => fractionDigits n power fraction
    | none => (n, power)
  let (shift, rest) ← match rest with
    | c :: after =>
      if c = 'e' ∨ c = 'E' then
        let (down, after) := Number.takeSign after
        let (digits, rest) := Number.takeDigits after
        (Number.natural? digits).map fun n => (some (if down then -(n : Int) else n), rest)
      else some (none, c :: after)
    | [] => some (none, [])
  let exact := if fraction.isNone && shift.isNone then integer? negative whole else none
  match exact with
  | some value => some (.integer value, rest)
  | none =>
    let x ← scaled? n (power + shift.getD 0)
    some (.decimal (if negative then -x else x), rest)

/-! ## Texts as tokens -/

/-- The token that a text starts with, and what follows. -/
def token? : List Char → Option (Token × List Char)
  | '[' :: rest => some (.openList, rest)
  | ']' :: rest => some (.closeList, rest)
  | '\x7b' :: rest => some (.openObject, rest)
  | '\x7d' :: rest => some (.closeObject, rest)
  | ',' :: rest => some (.comma, rest)
  | ':' :: rest => some (.colon, rest)
  | 'n' :: 'u' :: 'l' :: 'l' :: rest => some (.null, rest)
  | 't' :: 'r' :: 'u' :: 'e' :: rest => some (.boolean true, rest)
  | 'f' :: 'a' :: 'l' :: 's' :: 'e' :: rest => some (.boolean false, rest)
  | '"' :: rest => do
    let (pieces, rest) ← pieces? rest
    let chars ← characters? pieces
    return (.text (.ofList chars), rest)
  | chars => number? chars

/-- The tokens of a text, with the text's length as a bound on their number. -/
def tokensWithin : (bound : Nat) → List Char → Option (List Token)
  | _, [] => some []
  | 0, _ :: _ => none
  | bound + 1, c :: rest =>
    if c = ' ' ∨ c = '\n' ∨ c = '\r' ∨ c = '\t' then tokensWithin bound rest
    else do
      let (token, rest) ← token? (c :: rest)
      return token :: (← tokensWithin bound rest)

/-- The tokens of a text. -/
def tokens? (text : String) : Option (List Token) :=
  tokensWithin text.length text.toList

end Reshape.Json
