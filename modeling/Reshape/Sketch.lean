import Reshape.Program.Basic
import Reshape.Table.Basic
import Reshape.Text.Splitting

/-! Sketches: chains of operators with every argument open, one for each
sequence of operators and each input. Two facts about a problem, and rules about
the sequence alone, decide which of them enter the search. -/
namespace Reshape

/-- What a problem tells about the programs worth searching. -/
structure Context where
  /-- Some cell of the target occurs nowhere in the inputs, neither as a cell
  nor as a column name. -/
  newValues : Bool
  /-- Some column name or text in the inputs has a separator. -/
  hasSeparator : Bool
deriving DecidableEq, Repr

namespace Context

/-- The keys of all cells of a table, and its column names as cells. -/
def known (t : Table) : List Cell := t.columns.map Cell.text ++ t.cells.map Cell.key

/-- Whether a separator occurs in a table. -/
def separable (t : Table) : Bool :=
  t.columns.any Text.hasSeparator ||
    t.cells.any fun cell =>
      match cell with
      | .text s => Text.hasSeparator s
      | _ => false

/-- The facts about a problem. -/
def of (inputs : List Table) (target : Table) : Context where
  newValues :=
    let cells := inputs.flatMap known
    target.cells.any fun cell => cell.key ∉ cells
  hasSeparator := inputs.any separable

end Context

/-- Whether some element that may not repeat does. -/
def repeats (mayRepeat : Operator → Bool) : List Operator → Bool
  | [] => false
  | op :: rest => (!mayRepeat op && decide (op ∈ rest)) || repeats mayRepeat rest

/-- Whether a sequence of operators, the outermost first, is worth searching in
a context. `select` and `filter` are left to the user; `group_sum` and
`mutate_custom` have to come last; there is at most one gathering and one
appended computation; nothing but `separate` repeats; `separate` needs a
separator to be there; and new values need an operator that creates them. -/
def isAdmissible (operators : List Operator) (context : Context) : Bool :=
  !operators.any (fun op => op = .select ∨ op = .filter) &&
  !operators.tail.any (fun op => op = .groupSum ∨ op = .mutateCustom) &&
  decide ((operators.filter Operator.gathers).length ≤ 1) &&
  decide ((operators.filter Operator.appends).length ≤ 1) &&
  !repeats (· = .separate) operators &&
  (context.hasSeparator || .separate ∉ operators) &&
  (!context.newValues || operators.any Operator.createsValues)

/-- The sketches built so far, level by level. Level `n` holds those with `n`
operators, made by putting each operator around each sketch of the level
before. -/
structure Levels where
  operators : List Operator
  built : Array (List Program)
deriving Repr

namespace Levels

/-- The references to the inputs, which are the sketches without operators. -/
def start (operators : List Operator) (inputs : Nat) : Levels :=
  ⟨operators, #[(List.range inputs).map fun i => ⟨i, []⟩]⟩

/-- Every operator around every sketch. -/
def wrap (operators : List Operator) (inner : List Program) : List Program :=
  operators.flatMap fun op =>
    inner.map fun p => { p with steps := Step.sketch op :: p.steps }

/-- Builds some more levels. -/
def grow (levels : Levels) : (count : Nat) → Levels
  | 0 => levels
  | count + 1 =>
    let next := wrap levels.operators (levels.built.back?.getD [])
    { levels with built := levels.built.push next }.grow count

/-- All sketches of a size, and the levels with that one built. -/
def level (levels : Levels) (size : Nat) : List Program × Levels :=
  let levels := levels.grow (size + 1 - levels.built.size)
  (levels.built[size]?.getD [], levels)

/-- The sketches of a size that are worth searching. -/
def admissible (levels : Levels) (size : Nat) (context : Context) : List Program × Levels :=
  let (all, levels) := levels.level size
  (all.filter fun p => isAdmissible p.operators context, levels)

end Levels
end Reshape
