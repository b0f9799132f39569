import Reshape.Ordered
import Reshape.Table.Basic

/-! Tables as lists of records. The first record's keys, in its order, are the
columns; every other record has to have the same keys, in any order. -/
namespace Reshape

/-- A record: cells by column name, in the order in which the names came. -/
abbrev Record := List (String × Cell)

namespace Table

/-- The cells of a record in column order, or what is wrong with it. A name
that is no column is reported before a column that is missing. -/
def rowOfRecord (columns : List String) (row : Nat) (record : Record) : Except TableError Row :=
  match (Ordered.keys record).find? (· ∉ columns) with
  | some column => .error (.extraColumn row column)
  | none => columns.mapM fun column =>
    match Ordered.get? column record with
    | some cell => .ok cell
    | none => .error (.missingColumn row column)

/-- Builds a table from records. -/
def ofRecords (records : List Record) : Except TableError Table := do
  let columns := match records with
    | [] => []
    | first :: _ => Ordered.keys first
  let rows ← records.zipIdx.mapM fun (record, i) => rowOfRecord columns i record
  ofRows columns rows

/-- The rows as records. A record is a map, so of columns with one name the
first gives the place and the last the cell. -/
def records (t : Table) : List Record :=
  t.rows.map fun row => Ordered.ofPairs (t.columns.zip row)

end Table
end Reshape
