import Reshape.Choice
import Reshape.Problem.Config
import Reshape.Program.Schema

/-! The arguments worth trying. Given the table that a step reads and the
arguments before some position, its domain there lists the candidates in the
order in which the search takes them up. -/
namespace Reshape

/-- Every nonempty choice of at most `limit` columns, short choices first. -/
def columnChoices (limit width : Nat) : List (List Nat) :=
  (List.range' 1 limit).flatMap (combinations width)

/-- Whether columns are at least one and share their kind. -/
def Table.sharesKind (t : Table) (columns : List Nat) : Bool :=
  match columns with
  | [] => false
  | first :: rest => rest.all fun c => t.kind c = t.kind first

/-- Whether every cell of a column is a text with a separator. -/
def Table.isSeparable (t : Table) (column : Nat) : Bool :=
  (t.column column).all fun cell =>
    match cell with
    | .text s => Text.hasSeparator s
    | _ => false

/-- The constants of a kind. -/
def Config.constantsOf (config : Config) (kind : Kind) : List Argument :=
  (config.constants.filter (·.kind = kind)).map Argument.constant

/-- The comparisons that accept a kind. -/
def Config.comparisonsOf (config : Config) (kind : Kind) : List Argument :=
  (config.comparisons.filter (·.accepts kind)).map Argument.comparison

namespace Step

/-- The candidates for the argument at a position. -/
def domain (step : Step) (position : Nat) (t : Table) (config : Config) :
    Except EvalError (List Argument) :=
  let width := t.width
  let everyColumn := t.positions.map Argument.column
  let numeric := t.columnsOf .number
  match step.operator, position with
  | .select, 1 => .ok ((columnChoices width width).map Argument.columns)
  | .unite, 1 => .ok everyColumn
  | .unite, 2 => do
    let left ← step.columnHere 1 width
    return (t.positions.filter (left < ·)).map Argument.column
  | .unite, 3 => .ok [.constant (.text (.ofList [Text.uniteSeparator]))]
  | .filter, 1 | .mutateCustom, 1 => .ok everyColumn
  | .filter, 2 | .mutateCustom, 2 => do
    return config.comparisonsOf (t.kind (← step.columnHere 1 width))
  | .filter, 3 | .mutateCustom, 3 => do
    return config.constantsOf (t.kind (← step.columnHere 1 width))
  | .separate, 1 => .ok (((t.columnsOf .text).filter t.isSeparable).map Argument.column)
  | .spread, 1 => .ok everyColumn
  | .spread, 2 => do
    let key ← step.columnHere 1 width
    return (t.positions.filter (· ≠ key)).map Argument.column
  | .gather, 1 =>
    .ok (((columnChoices (min config.gatherLimit width) width).filter t.sharesKind).map
      Argument.columns)
  | .gatherNeg, 1 =>
    .ok (((columnChoices (min config.keepLimit (width - 1)) width).filter
      fun kept => t.sharesKind (t.others kept)).map Argument.columns)
  | .groupSum, 1 => .ok ((columnChoices width width).map Argument.columns)
  | .groupSum, 2 =>
    match step.argument? 1 with
    | some (.columns groups) =>
      .ok ((numeric.filter (· ∉ groups)).map Argument.column ++
        if Aggregate.count ∈ config.aggregates then [.rows] else [])
    | _ => .error (.hole step.operator 1)
  | .groupSum, 3 =>
    match step.argument? 2 with
    | some .rows => .ok [.aggregate .count]
    | some (.column _) => .ok ((config.aggregates.filter (· ≠ .count)).map Argument.aggregate)
    | _ => .error (.hole step.operator 2)
  | .cumsum, 1 => .ok (numeric.map Argument.column)
  | .mutate, 1 => .ok (numeric.map Argument.column)
  | .mutate, 2 => .ok (config.arithmetic.map Argument.arithmetic)
  | .mutate, 3 => do
    let left ← step.columnHere 1 width
    match step.argument? 2 with
    -- A sum is tried in one order only.
    | some (.arithmetic .plus) => return (numeric.filter (left < ·)).map Argument.column
    | some (.arithmetic .minus) => return (numeric.filter (· ≠ left)).map Argument.column
    | _ => .error (.hole step.operator 2)
  | op, position => .error (.badArgument op position)

end Step

/-- The candidates for an argument of a program's outermost step. -/
def Program.domain (p : Program) (position : Nat) (inputs : List Table) (config : Config) :
    Except EvalError (List Argument) :=
  match p.steps with
  | [] => .ok []
  | step :: rest => do step.domain position (← evalSteps inputs p.input rest) config

end Reshape
