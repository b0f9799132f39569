import Reshape.Operation.Columns

/-! The operators that trade columns for rows. Gathering writes several columns
below each other, with a column that says where each cell came from; spreading
takes the cells of one column as the names of new columns. -/
namespace Reshape.Table

open Reshape.Text (Names)

/-- Turns several columns of one kind into a column of their names and one of
their cells, a block of rows for each of them. -/
def gather (t : Table) (melted : List Nat) : Except Refusal Table :=
  match melted with
  | [] => .error .nothingToGather
  | first :: _ =>
    if melted.any fun c => t.kind c ≠ t.kind first then .error .mixedKinds
    else
      let ids := t.others melted
      let (added, _) := (Names.reserving t.columns).claimAll ["KEY", "VALUE"]
      .ok {
        columns := ids.map t.name ++ added
        kinds := ids.map t.kind ++ [.text, t.kind first]
        rows := melted.flatMap fun c =>
          t.rows.map fun row => row.pick ids ++ [.text (t.name c), row.at c] }

/-- A row together with what decides its place in a spread table: the keys of
the columns that stay, and the key of the cell that names its new column. -/
structure Placed where
  group : Row
  key : Cell
  row : Row
deriving DecidableEq, Repr

/-- A row with its place. -/
def place (index : List Nat) (key : Nat) (row : Row) : Placed where
  group := (row.pick index).key
  key := (row.at key).key
  row := row

/-- Turns the cells of the key column into new columns that hold the cells of
the value column. There is one row for each group of rows that agree in all
other columns, and each group needs exactly one row for each key. Groups and
keys stand in the order in which they first occur. -/
def spread (t : Table) (key value : Nat) : Except Refusal Table := do
  if key = value then throw .keyIsValue
  let index := t.others [key, value]
  let placed := t.rows.map (place index key)
  match firstRepeat (fun p => (p.group, p.key)) [] placed with
  | some p => throw (.repeatedKey (p.row.at key))
  | none => pure ()
  if placed = [] then throw .nothingToSpread
  let keys := firstsBy Placed.key placed
  let groups := firstsBy Placed.group placed
  let (added, _) := (Names.reserving (index.map t.name)).claimAll
    (keys.map fun k => (k.row.at key).display)
  let rows ← groups.mapM fun g => do
    let cells ← keys.mapM fun k =>
      match placed.find? fun p => p.group = g.group ∧ p.key = k.key with
      | some p => .ok (p.row.at value)
      | none => .error .missingCells
    return g.row.pick index ++ cells
  return {
    columns := index.map t.name ++ added
    kinds := index.map t.kind ++ keys.map fun _ => t.kind value
    rows := rows }

end Reshape.Table
