import Reshape.Program.Basic

/-! Holes and how they are addressed. A path starts at the outermost step; a
zero leads to the table that a step reads, and a last position beyond zero to
one of its arguments. -/
namespace Reshape

/-- The way to a part of a program. -/
abbrev Path := List Nat

/-- The step with the hole at a position filled, if there is a hole. -/
def Step.fill? (step : Step) (position : Nat) (value : Argument) : Option Step :=
  if step.argument? position = some .hole then some (step.withArgument position value) else none

/-- The paths of all holes, outermost steps first. -/
def holePaths : List Step → List Path
  | [] => []
  | step :: rest => step.holes.map ([·]) ++ (holePaths rest).map (0 :: ·)

/-- The steps with the hole at a path filled, if the path leads to a hole. -/
def fillSteps? : List Step → Path → Argument → Option (List Step)
  | [], _, _ => none
  | _ :: _, [], _ => none
  | step :: rest, 0 :: path, value => (fillSteps? rest path value).map (step :: ·)
  | step :: rest, [position], value => (step.fill? position value).map (· :: rest)
  | _, _, _ => none

/-- The steps below a path, if it leads to a table. -/
def stepsBelow? : List Step → Path → Option (List Step)
  | steps, [] => some steps
  | _ :: rest, 0 :: path => stepsBelow? rest path
  | _, _ => none

namespace Program

/-- The paths of all holes, outermost steps first. -/
def holes (p : Program) : List Path := holePaths p.steps

/-- The program with the hole at a path filled, if the path leads to a hole. -/
def fill? (p : Program) (path : Path) (value : Argument) : Option Program :=
  (fillSteps? p.steps path value).map fun steps => { p with steps }

/-- The part of the program at a path, if the path leads to a table. -/
def part? (p : Program) (path : Path) : Option Program :=
  (stepsBelow? p.steps path).map fun steps => { p with steps }

end Program
end Reshape
