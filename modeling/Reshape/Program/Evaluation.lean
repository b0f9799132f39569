import Reshape.Operation.Pivot
import Reshape.Operation.Summary
import Reshape.Program.Basic

/-! What programs compute. A step first takes its arguments, each of the kind
its position calls for, and then applies its operator to the table below. -/
namespace Reshape

/-- Why a program has no value. -/
inductive EvalError where
  | inapplicable (op : Operator) (reason : Refusal)
  | hole (op : Operator) (position : Nat)
  | badArgument (op : Operator) (position : Nat)
  | columnOutOfRange (op : Operator) (column width : Nat)
  | missingInput (input given : Nat)
deriving DecidableEq, Repr

/-- The text of an error. -/
def EvalError.message : EvalError → String
  | .inapplicable op reason => s!"{op.name} is not applicable: {reason.message}"
  | .hole op position => s!"argument {position} of {op.name} is still a hole"
  | .badArgument op position => s!"argument {position} of {op.name} has the wrong kind"
  | .columnOutOfRange op column width =>
    s!"column {column} is out of range for {op.name} over {width} columns"
  | .missingInput input given =>
    s!"the program reads input {input}, but only {given} inputs were given"

namespace Step

/-- The argument at a position, which must be there and not open. -/
def required (step : Step) (position : Nat) : Except EvalError Argument :=
  match step.argument? position with
  | none => .error (.badArgument step.operator position)
  | some .hole => .error (.hole step.operator position)
  | some argument => .ok argument

/-- A column of a table of this width. -/
def checkColumn (step : Step) (width column : Nat) : Except EvalError Nat :=
  if column < width then .ok column
  else .error (.columnOutOfRange step.operator column width)

/-- The column at a position. -/
def takeColumn (step : Step) (position width : Nat) : Except EvalError Nat := do
  match ← step.required position with
  | .column c => step.checkColumn width c
  | _ => .error (.badArgument step.operator position)

/-- The columns at a position, all different. -/
def takeColumns (step : Step) (position width : Nat) : Except EvalError (List Nat) := do
  match ← step.required position with
  | .columns cs =>
    match cs.find? (width ≤ ·) with
    | some c => .error (.columnOutOfRange step.operator c width)
    | none =>
      if cs.Nodup then .ok cs else .error (.inapplicable step.operator .columnListedTwice)
  | _ => .error (.badArgument step.operator position)

/-- The comparison at a position. -/
def takeComparison (step : Step) (position : Nat) : Except EvalError Comparison := do
  match ← step.required position with
  | .comparison op => .ok op
  | _ => .error (.badArgument step.operator position)

/-- The arithmetic operation at a position. -/
def takeArithmetic (step : Step) (position : Nat) : Except EvalError Arithmetic := do
  match ← step.required position with
  | .arithmetic op => .ok op
  | _ => .error (.badArgument step.operator position)

/-- The aggregation at a position. -/
def takeAggregate (step : Step) (position : Nat) : Except EvalError Aggregate := do
  match ← step.required position with
  | .aggregate f => .ok f
  | _ => .error (.badArgument step.operator position)

/-- The constant at a position. -/
def takeConstant (step : Step) (position : Nat) : Except EvalError Cell := do
  match ← step.required position with
  | .constant cell => .ok cell
  | _ => .error (.badArgument step.operator position)

/-- The text constant at a position. -/
def takeText (step : Step) (position : Nat) : Except EvalError String := do
  match ← step.takeConstant position with
  | .text s => .ok s
  | _ => .error (.badArgument step.operator position)

/-- What to aggregate, at a position: a column, or the rows themselves. -/
def takeTarget (step : Step) (position width : Nat) : Except EvalError (Option Nat) := do
  match ← step.required position with
  | .rows => .ok none
  | .column c => (step.checkColumn width c).map some
  | _ => .error (.badArgument step.operator position)

/-- The result of an operator on a table, its reasons being those of a step. -/
def refusing (step : Step) (result : Except Refusal Table) : Except EvalError Table :=
  result.mapError (.inapplicable step.operator)

/-- Applies a step to a table. -/
def apply (step : Step) (t : Table) : Except EvalError Table :=
  match step.operator with
  | .select => do
    let columns ← step.takeColumns 1 t.width
    step.refusing (t.select columns)
  | .unite => do
    let left ← step.takeColumn 1 t.width
    let right ← step.takeColumn 2 t.width
    let separator ← step.takeText 3
    step.refusing (t.unite left right separator)
  | .filter => do
    let column ← step.takeColumn 1 t.width
    let op ← step.takeComparison 2
    let constant ← step.takeConstant 3
    step.refusing (t.filter column op constant)
  | .separate => do
    let column ← step.takeColumn 1 t.width
    step.refusing (t.separate column)
  | .spread => do
    let key ← step.takeColumn 1 t.width
    let value ← step.takeColumn 2 t.width
    step.refusing (t.spread key value)
  | .gather => do
    let melted ← step.takeColumns 1 t.width
    step.refusing (t.gather melted)
  | .gatherNeg => do
    let kept ← step.takeColumns 1 t.width
    step.refusing (t.gather (t.others kept))
  | .groupSum => do
    let groups ← step.takeColumns 1 t.width
    let target ← step.takeTarget 2 t.width
    let f ← step.takeAggregate 3
    step.refusing (t.groupSum groups target f)
  | .cumsum => do
    let column ← step.takeColumn 1 t.width
    step.refusing (t.cumsum column)
  | .mutate => do
    let left ← step.takeColumn 1 t.width
    let op ← step.takeArithmetic 2
    let right ← step.takeColumn 3 t.width
    step.refusing (t.mutate left op right)
  | .mutateCustom => do
    let column ← step.takeColumn 1 t.width
    let op ← step.takeComparison 2
    let constant ← step.takeConstant 3
    step.refusing (t.mutateCustom column op constant)

end Step

/-- The value of steps on one of the inputs. -/
def evalSteps (inputs : List Table) (input : Nat) : List Step → Except EvalError Table
  | [] =>
    match inputs[input]? with
    | some t => .ok t
    | none => .error (.missingInput input inputs.length)
  | step :: rest => do step.apply (← evalSteps inputs input rest)

/-- The value of a program. -/
def Program.eval (p : Program) (inputs : List Table) : Except EvalError Table :=
  evalSteps inputs p.input p.steps

end Reshape
