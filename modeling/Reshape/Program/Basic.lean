import Reshape.Program.Operator

/-! Programs. A program reads one input table and applies a chain of operators
to it. Arguments of an operator may be left open as holes; a program without
holes is concrete, and one whose arguments are all holes is a sketch. -/
namespace Reshape

/-- An argument of an operator. -/
inductive Argument where
  /-- Not decided yet. -/
  | hole
  | column (column : Nat)
  | columns (columns : List Nat)
  | comparison (op : Comparison)
  | arithmetic (op : Arithmetic)
  | aggregate (f : Aggregate)
  /-- The rows themselves, where `group_sum` would otherwise name a column. -/
  | rows
  | constant (cell : Cell)
deriving DecidableEq, Repr

namespace Argument

instance : Inhabited Argument := ⟨.hole⟩

/-- The argument that stands for all that are equal in value. -/
def canonical : Argument → Argument
  | .constant cell => .constant cell.canonical
  | argument => argument

/-- The text of an argument. -/
def display : Argument → String
  | .hole => "??"
  | .column c => toString c
  | .columns cs => "[" ++ ", ".intercalate (cs.map toString) ++ "]"
  | .comparison op => Text.quoted op.symbol
  | .arithmetic op => Text.quoted op.symbol
  | .aggregate f => Text.quoted f.name
  | .rows => "*"
  | .constant cell => cell.literal

end Argument

/-- An operator with its arguments. -/
structure Step where
  operator : Operator
  arguments : List Argument
deriving DecidableEq, Repr

namespace Step

/-- The operator with every argument open. -/
def sketch (op : Operator) : Step := ⟨op, List.replicate op.arity .hole⟩

/-- The argument at a position. Position zero is the table that the operator
reads, which is no argument. -/
def argument? (step : Step) : (position : Nat) → Option Argument
  | 0 => none
  | index + 1 => step.arguments[index]?

/-- The step with another argument at a position. -/
def withArgument (step : Step) : (position : Nat) → Argument → Step
  | 0, _ => step
  | index + 1, value => { step with arguments := step.arguments.set index value }

/-- The positions of the step's holes. -/
def holes (step : Step) : List Nat :=
  (List.range' 1 step.arguments.length).filter fun position =>
    step.argument? position = some .hole

/-- Whether no argument is open. -/
def isConcrete (step : Step) : Bool := step.arguments.all (· ≠ .hole)

/-- The step that stands for all that are equal in value. -/
def canonical (step : Step) : Step :=
  { step with arguments := step.arguments.map Argument.canonical }

end Step

/-- A program: the number of the table it reads, and its steps with the last
one applied in front. The steps from some place on are the part of the program
that the steps before them are applied to. -/
structure Program where
  input : Nat
  steps : List Step
deriving DecidableEq, Repr

namespace Program

/-- The number of steps. -/
def size (p : Program) : Nat := p.steps.length

/-- The operators, the last one applied first. -/
def operators (p : Program) : List Operator := p.steps.map Step.operator

/-- The chain of these operators with every argument open. -/
def sketch (operators : List Operator) (input : Nat) : Program :=
  ⟨input, operators.map Step.sketch⟩

/-- Whether no argument of any step is open. -/
def isConcrete (p : Program) : Bool := p.steps.all Step.isConcrete

/-- The program that stands for all that are equal in value. -/
def canonical (p : Program) : Program := { p with steps := p.steps.map Step.canonical }

end Program
end Reshape
