import Reshape.Cell.Fragment
import Reshape.Operation.Refusal
import Reshape.Table.Basic
import Reshape.Text.Names
import Reshape.Text.Splitting

/-! The operators that work row by row: they keep or drop rows, and put columns
in the place of others or behind them. Rows stay in their order. -/
namespace Reshape

open Text (Names)

/-- Walks over columns, writing `new` in the place of column `place`, nothing
in the place of a column in `gone`, and the old entry elsewhere. -/
def splice {α : Type} (width place : Nat) (gone : List Nat) (new : List α) (old : Nat → α) :
    List α :=
  (List.range width).flatMap fun c =>
    if c = place then new else if c ∈ gone then [] else [old c]

namespace Table

/-- Puts new columns in the place of one and leaves some others out. The new
cells are given row by row. -/
def splice (t : Table) (place : Nat) (gone : List Nat) (new : List (String × Kind))
    (cells : List Row) : Table where
  columns := Reshape.splice t.width place gone (new.map (·.1)) t.name
  kinds := Reshape.splice t.width place gone (new.map (·.2)) t.kind
  rows := List.zipWith (fun row added => Reshape.splice t.width place gone added row.at)
    t.rows cells

/-- Puts one new column behind all others. -/
def append (t : Table) (name : String) (kind : Kind) (cells : List Cell) : Table where
  columns := t.columns ++ [name]
  kinds := t.kinds ++ [kind]
  rows := List.zipWith (fun row cell => row ++ [cell]) t.rows cells

/-- A name for a new column: the hint, or the hint with a number when a column
has that name. -/
def newName (t : Table) (hint : String) : String := ((Names.reserving t.columns).claim hint).1

/-- Requires a column of numbers. -/
def requireNumeric (t : Table) (column : Nat) : Except Refusal Unit :=
  if t.kind column = .number then .ok () else .error (.notNumeric (t.name column))

/-- Requires that the cells of a column can be compared so with a constant. -/
def requireComparable (t : Table) (column : Nat) (op : Comparison) (constant : Cell) :
    Except Refusal Unit :=
  if op.accepts (t.kind column) ∧ constant.kind = t.kind column then .ok ()
  else .error (.notComparable (t.kind column) constant op)

/-- Keeps at least one column, in the order given. -/
def select (t : Table) (columns : List Nat) : Except Refusal Table :=
  if columns = [] then .error .noColumnsSelected else .ok (t.project columns)

/-- The cell that joins the texts of two cells. -/
def joinCells (separator : String) (left right : Cell) : Cell :=
  .text (left.display ++ separator ++ right.display)

/-- Joins two columns into a text column in the place of the first. -/
def unite (t : Table) (left right : Nat) (separator : String) : Except Refusal Table :=
  if left = right then .error .uniteWithItself
  else
    let name := t.newName (t.name left ++ separator ++ t.name right)
    .ok (t.splice left [right] [(name, .text)]
      (t.rows.map fun row => [joinCells separator (row.at left) (row.at right)]))

/-- Keeps the rows whose cell in a column compares so with a constant. -/
def filter (t : Table) (column : Nat) (op : Comparison) (constant : Cell) :
    Except Refusal Table := do
  t.requireComparable column op constant
  return { t with rows := t.rows.filter fun row => op.holds? (row.at column) constant = some true }

/-- Puts two columns of fragments in the place of a column. Both get the name
of the column with a number behind it, and each becomes a number column if all
its fragments are numbers. -/
def splitColumn (t : Table) (column : Nat) (parts : List (List Char × List Char)) : Table :=
  let (leftKind, lefts) := Cell.ofFragments (parts.map (·.1))
  let (rightKind, rights) := Cell.ofFragments (parts.map (·.2))
  let (leftName, names) := (Names.reserving t.columns).claim (t.name column ++ "1")
  let (rightName, _) := names.claim (t.name column ++ "2")
  t.splice column [] [(leftName, leftKind), (rightName, rightKind)]
    (List.zipWith (fun left right => [left, right]) lefts rights)

/-- The characters of a text cell. -/
def cellText (cell : Cell) : List Char := (cell.text?.getD "").toList

/-- Splits every text of a column at its first separator. -/
def separate (t : Table) (column : Nat) : Except Refusal Table := do
  if t.kind column ≠ .text then throw .notText
  let parts ← (t.column column).mapM fun cell =>
    match Text.splitFirst? (· ∈ Text.separators) (cellText cell) with
    | some parts => .ok parts
    | none => .error (.noSeparator (.ofList (cellText cell)))
  return t.splitColumn column parts

/-- The sums of a list of numbers up to each of them. -/
def runningTotals (total : Float) : List Float → List Float
  | [] => []
  | x :: rest => (total + x) :: runningTotals (total + x) rest

/-- The number in a cell, zero if there is none. -/
def cellNumber (cell : Cell) : Float := cell.number?.getD 0

/-- Appends the running total of a column. -/
def cumsum (t : Table) (column : Nat) : Except Refusal Table := do
  t.requireNumeric column
  return t.append (t.newName "cumsum") .number
    ((runningTotals 0 ((t.column column).map cellNumber)).map Cell.number)

/-- Appends the sum or difference of two columns. -/
def mutate (t : Table) (left : Nat) (op : Arithmetic) (right : Nat) : Except Refusal Table := do
  if left = right then throw .sameColumnTwice
  t.requireNumeric left
  t.requireNumeric right
  return t.append (t.newName (t.name left ++ op.symbol ++ t.name right)) .number
    (t.rows.map fun row =>
      .number (op.apply (cellNumber (row.at left)) (cellNumber (row.at right))))

/-- Appends whether the cell of a column compares so with a constant. -/
def mutateCustom (t : Table) (column : Nat) (op : Comparison) (constant : Cell) :
    Except Refusal Table := do
  t.requireComparable column op constant
  return t.append (t.newName (t.name column ++ op.symbol ++ constant.display)) .boolean
    ((t.column column).map fun cell => .boolean (op.holds? cell constant = some true))

end Table
end Reshape
