import Reshape.Json.Writer
import Reshape.Table.Records

/-! Tables as JSON: a list of flat objects, one for each row. -/
namespace Reshape

/-- The number that a whole number from a JSON text stands for. -/
def Number.ofInt (n : Int) : Float := nearest (decide (n < 0)) n.natAbs 1

/-- A scalar JSON value as a cell. -/
def Cell.ofJson? : Json → Option Cell
  | .text s => some (.text s)
  | .boolean b => some (.boolean b)
  | .integer n => some (.number (Number.ofInt n))
  | .decimal x => some (.number x)
  | _ => none

/-- A cell as a JSON value. Numbers that are not finite have none. -/
def Cell.toJson : Cell → Json
  | .text s => .text s
  | .boolean b => .boolean b
  | .number x => if x.isFinite then .decimal x else .null

namespace Table

/-- A JSON object as a record. -/
def recordOfJson : Json → Except TableError Record
  | .object fields => do
    let pairs ← fields.mapM fun (column, value) =>
      match Cell.ofJson? value with
      | some cell => .ok (column, cell)
      | none => .error (.unsupportedValue column value.write)
    .ok (Ordered.ofPairs pairs)
  | other => .error (.notRecords other.write)

/-- Reads a JSON list of flat objects. -/
def ofJson : Json → Except TableError Table
  | .list items => do ofRecords (← items.mapM recordOfJson)
  | other => .error (.notRecords other.write)

/-- The rows as a JSON list of flat objects. -/
def toJson (t : Table) : Json :=
  .list (t.records.map fun record =>
    .object (record.map fun (column, cell) => (column, cell.toJson)))

end Table
end Reshape
