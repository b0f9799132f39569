import Reshape.Operation.Columns

/-! Summarizing groups of rows. -/
namespace Reshape.Table

/-- The rows that agree with a row in the keys of some columns. -/
def rowsLike (t : Table) (columns : List Nat) (row : Row) : List Row :=
  t.rows.filter fun other => (other.pick columns).key = (row.pick columns).key

/-- One row for each group of rows that agree in the keys of the grouping
columns: the cells of its first row there, and the aggregate of the group.
Without a target, the rows themselves are counted. -/
def groupSum (t : Table) (groups : List Nat) (target : Option Nat) (f : Aggregate) :
    Except Refusal Table := do
  if groups = [] then throw .noGroups
  let hint ← match target with
    | none => if f = .count then .ok "count" else .error .rowsOnlyCounted
    | some c =>
      if c ∈ groups then .error .aggregatesGroup
      else (t.requireNumeric c).map fun _ => f.name ++ "_" ++ t.name c
  let valueOf (row : Row) : Float := match target with
    | none => 1
    | some c => ((row.at c).number?).getD 1
  return {
    columns := groups.map t.name ++ [t.newName hint]
    kinds := groups.map t.kind ++ [.number]
    rows := (firstsBy (fun row => (row.pick groups).key) t.rows).map fun row =>
      row.pick groups ++ [.number (f.apply ((t.rowsLike groups row).map valueOf))] }

end Reshape.Table
