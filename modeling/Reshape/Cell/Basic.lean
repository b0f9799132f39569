import Reshape.Number.Numeral
import Reshape.Text.Quoted

/-! Table cells: a text, a number or a truth value. Cells are compared in two
ways. Two numbers have the same *value* when they differ at most in the sign
of zero; they have the same *key* when they agree to five decimal places,
which absorbs the noise of sums and means. Keys decide whether one table is
included in another and which rows belong together. -/
namespace Reshape

/-- The kinds of cells, which are also the types of columns. -/
inductive Kind where
  | text
  | number
  | boolean
deriving DecidableEq, Repr

/-- The name of a kind. -/
def Kind.name : Kind → String
  | .text => "string"
  | .number => "number"
  | .boolean => "boolean"

/-- A table cell. -/
inductive Cell where
  | text (value : String)
  | number (value : Float)
  | boolean (value : Bool)
deriving DecidableEq, Repr

namespace Cell

instance : Inhabited Cell := ⟨.text ""⟩

/-- The kind of a cell. -/
def kind : Cell → Kind
  | .text _ => .text
  | .number _ => .number
  | .boolean _ => .boolean

/-- The number in a cell, if it holds one. -/
def number? : Cell → Option Float
  | .number x => some x
  | _ => none

/-- The text in a cell, if it holds one. -/
def text? : Cell → Option String
  | .text s => some s
  | _ => none

/-- The cell that stands for all cells of the same value. -/
def canonical : Cell → Cell
  | .number x => .number (Number.canonical x)
  | cell => cell

/-- The cell that stands for all cells with the same key: a number is rounded
to five decimal places, anything else is itself. -/
def key : Cell → Cell
  | .number x => .number (Number.fivePlaces x)
  | cell => cell

/-- The text of a cell in a printed table or inside a united column. -/
def display : Cell → String
  | .text s => s
  | .number x => Number.plain x
  | .boolean b => if b then "true" else "false"

/-- The text of a cell as a constant in a program: texts are quoted. -/
def literal : Cell → String
  | .text s => Text.quoted s
  | cell => cell.display

/-- Numbers in increasing order. What is no number is equal to itself and
greater than every number, and the two zeros are equal. -/
def compareNumbers (x y : Float) : Ordering :=
  if x.isNaN then if y.isNaN then .eq else .gt
  else if y.isNaN ∨ x < y then .lt
  else if y < x then .gt
  else .eq

/-- The order of cells: texts by their characters, then numbers, then false
before true. -/
def compare : Cell → Cell → Ordering
  | .text s, .text t => Ord.compare s t
  | .text _, _ => .lt
  | .number _, .text _ => .gt
  | .number x, .number y => compareNumbers x y
  | .number _, .boolean _ => .lt
  | .boolean a, .boolean b => Ord.compare a b
  | .boolean _, _ => .gt

end Cell
end Reshape
