import Reshape.Cell.Basic
import Reshape.Distinct

/-! Tables: named columns of one kind each, and rows with one cell per column.
`Table.ofRows` is how data from outside becomes a table: it refuses repeated
names and rows of the wrong length, and turns a column of mixed kinds into
text. -/
namespace Reshape

/-- Why data is not a table. -/
inductive TableError where
  | duplicateColumn (column : String)
  | rowLength (row expected found : Nat)
  | missingColumn (row : Nat) (column : String)
  | extraColumn (row : Nat) (column : String)
  /-- A value that no cell can hold, given as it was written. -/
  | unsupportedValue (column value : String)
  /-- Something else in place of a list of records, given as it was written. -/
  | notRecords (found : String)
deriving DecidableEq, Repr

/-- The text of an error. -/
def TableError.message : TableError → String
  | .duplicateColumn column => s!"duplicate column name {Text.quoted column}"
  | .rowLength row expected found =>
    s!"row {row} has {found} cells but the schema has {expected} columns"
  | .missingColumn row column => s!"row {row} is missing column {Text.quoted column}"
  | .extraColumn row column =>
    s!"row {row} has column {Text.quoted column}, which is not in the schema"
  | .unsupportedValue column value =>
    s!"unsupported value {value} in column {Text.quoted column}"
  | .notRecords found => s!"expected a list of records, found {found}"

/-- The cells of one row, in column order. -/
abbrev Row := List Cell

/-- The cell of a row in a column. -/
def Row.at (row : Row) (column : Nat) : Cell := row.getD column default

/-- The keys of a row's cells. -/
def Row.key (row : Row) : Row := row.map Cell.key

/-- The cells of a row in some columns, in the order given. -/
def Row.pick (row : Row) (columns : List Nat) : Row := columns.map row.at

/-- A table. -/
structure Table where
  columns : List String
  kinds : List Kind
  rows : List Row
deriving DecidableEq, Repr

namespace Table

/-- What every table that comes from `ofRows` satisfies and every operator
keeps: different column names, a kind for each column, and in each row a cell
of its column's kind for each column. -/
structure WellFormed (t : Table) : Prop where
  distinct : t.columns.Nodup
  typed : t.kinds.length = t.columns.length
  filled : ∀ row ∈ t.rows, row.map Cell.kind = t.kinds

/-- The number of columns. -/
def width (t : Table) : Nat := t.columns.length

/-- The number of rows. -/
def height (t : Table) : Nat := t.rows.length

/-- The positions of all columns. -/
def positions (t : Table) : List Nat := List.range t.width

/-- The name of a column. -/
def name (t : Table) (column : Nat) : String := t.columns.getD column ""

/-- The kind of a column. -/
def kind (t : Table) (column : Nat) : Kind := t.kinds.getD column .text

/-- The cells of a column, from the top. -/
def column (t : Table) (column : Nat) : List Cell := t.rows.map (Row.at · column)

/-- Every cell, row by row. -/
def cells (t : Table) : List Cell := t.rows.flatten

/-- The columns of a kind, in order. -/
def columnsOf (t : Table) (kind : Kind) : List Nat :=
  t.positions.filter fun c => t.kind c = kind

/-- The columns other than these, in order. -/
def others (t : Table) (columns : List Nat) : List Nat :=
  t.positions.filter (· ∉ columns)

/-- Keeps some columns, in the order given. -/
def project (t : Table) (columns : List Nat) : Table where
  columns := columns.map t.name
  kinds := columns.map t.kind
  rows := t.rows.map (Row.pick · columns)

/-- Removes some columns. -/
def drop (t : Table) (columns : List Nat) : Table := t.project (t.others columns)

/-- Removes every row whose key has occurred above it. -/
def dedup (t : Table) : Table := { t with rows := firstsBy Row.key t.rows }

/-- The table that stands for all tables equal to it cell value by cell
value. -/
def canonical (t : Table) : Table := { t with rows := t.rows.map (·.map Cell.canonical) }

/-- The kind shared by all cells of a column, if there is one. A column
without cells holds text. -/
def sharedKind : List Cell → Option Kind
  | [] => some .text
  | cell :: cells => if cells.all (·.kind = cell.kind) then some cell.kind else none

/-- A cell of a column of this kind; in a mixed column it becomes text. -/
def settle : Option Kind → Cell → Cell
  | some _, cell => cell
  | none, cell => .text cell.display

/-- Builds a table from column names and rows. The kinds of the columns follow
from the cells, and a column of mixed kinds becomes text. -/
def ofRows (columns : List String) (rows : List Row) : Except TableError Table :=
  match firstRepeat id [] columns with
  | some name => .error (.duplicateColumn name)
  | none =>
    match rows.zipIdx.find? fun (row, _) => row.length ≠ columns.length with
    | some (row, i) => .error (.rowLength i columns.length row.length)
    | none =>
      let kinds := (List.range columns.length).map fun c => sharedKind (rows.map (Row.at · c))
      .ok {
        columns
        kinds := kinds.map (·.getD .text)
        rows := rows.map fun row => List.zipWith settle kinds row }

end Table
end Reshape
