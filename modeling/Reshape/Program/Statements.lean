import Reshape.Program.Basic
import Reshape.Text.Names

/-! Programs as text: one assignment for each step, from the innermost one
out. Each reads the variable of the one before it, the first the input. -/
namespace Reshape

open Text (Names)

/-- The variable of an input table. -/
def inputName (input : Nat) : String := "input" ++ toString input

/-- The assignment of a step's result to a variable. -/
def Step.statement (step : Step) (target source : String) : String :=
  target ++ " <- " ++ step.operator.name ++ "(" ++
    ", ".intercalate (source :: step.arguments.map Argument.display) ++ ")"

/-- The assignments of steps, the innermost first, on a table held by
`source`. -/
def statementsFrom (names : Names) (source : String) : (inward : List Step) → List String
  | [] => []
  | step :: rest =>
    let (target, names) := names.fresh "t"
    step.statement target source :: statementsFrom names target rest

namespace Program

/-- The assignments of a program. -/
def statements (p : Program) : List String :=
  let source := inputName p.input
  statementsFrom (Names.reserving [source]) source p.steps.reverse

/-- The text of a program on one line. -/
def display (p : Program) : String :=
  if p.steps = [] then inputName p.input else "; ".intercalate p.statements

end Program
end Reshape
