import Reshape.Program.Evaluation

/-! The kinds of a program's columns. Most operators give them away without the
data; `spread` and `separate` have to be evaluated. -/
namespace Reshape

namespace Step

/-- The column at a position, for kinds alone. -/
def columnHere (step : Step) (position width : Nat) : Except EvalError Nat :=
  match step.argument? position with
  | some (.column c) => step.checkColumn width c
  | some .hole => .error (.hole step.operator position)
  | _ => .error (.badArgument step.operator position)

/-- The columns at a position, for kinds alone: here they may repeat. -/
def columnsHere (step : Step) (position width : Nat) : Except EvalError (List Nat) :=
  match step.argument? position with
  | some (.columns cs) =>
    if cs.all (· < width) then .ok cs else .error (.badArgument step.operator position)
  | some .hole => .error (.hole step.operator position)
  | _ => .error (.badArgument step.operator position)

/-- The kinds of a gathered table's columns, the columns that go into rows
being told by `melted`. -/
def gatheredKinds (kinds : List Kind) (melted : Nat → Bool) : List Kind :=
  let columns := List.range kinds.length
  let kindAt (c : Nat) : Kind := kinds.getD c .text
  let shared := ((columns.find? melted).map kindAt).getD .text
  (columns.filter fun c => !melted c).map kindAt ++ [.text, shared]

/-- The kinds of the columns that a step makes of columns of these kinds. -/
def kinds (step : Step) (kinds : List Kind) : Except EvalError (List Kind) :=
  let width := kinds.length
  let kindAt (c : Nat) : Kind := kinds.getD c .text
  match step.operator with
  | .select => do return (← step.columnsHere 1 width).map kindAt
  | .filter => .ok kinds
  | .unite => do
    let left ← step.columnHere 1 width
    let right ← step.columnHere 2 width
    return splice width left [right] [.text] kindAt
  | .gather => do
    let listed ← step.columnsHere 1 width
    return gatheredKinds kinds fun c => decide (c ∈ listed)
  | .gatherNeg => do
    let listed ← step.columnsHere 1 width
    return gatheredKinds kinds fun c => decide (c ∉ listed)
  | .groupSum => do return (← step.columnsHere 1 width).map kindAt ++ [.number]
  | .cumsum | .mutate => .ok (kinds ++ [.number])
  | .mutateCustom => .ok (kinds ++ [.boolean])
  | .spread | .separate => .error (.inapplicable step.operator .kindsFromData)

end Step

/-- The kinds of the columns of steps on one of the inputs. -/
def kindsOfSteps (inputs : List Table) (input : Nat) : List Step → Except EvalError (List Kind)
  | [] => (evalSteps inputs input []).map Table.kinds
  | step :: rest =>
    if step.operator.kindsFromData then
      (evalSteps inputs input (step :: rest)).map Table.kinds
    else do step.kinds (← kindsOfSteps inputs input rest)

/-- The kinds of a program's columns. -/
def Program.columnKinds (p : Program) (inputs : List Table) : Except EvalError (List Kind) :=
  kindsOfSteps inputs p.input p.steps

end Reshape
