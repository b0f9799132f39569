import Reshape.Program.Statements
import Reshape.Search.Synthesis
import Reshape.Table.Layout

/-! The result of a search as text. -/
namespace Reshape

/-- The lines of one program: its assignments, or the input it refers to. -/
def Program.listing (p : Program) : List String :=
  if p.steps = [] then [p.display] else p.statements

/-- Every program under a heading with its number, and below it the table that
it makes if asked for. -/
def Synthesis.display (s : Synthesis) (showOutput : Bool) : String :=
  if s.solutions = [] then "No program found\n"
  else String.join (s.solutions.zipIdx.map fun (solution, i) =>
    String.join ((("# solution " ++ toString i) :: solution.program.listing).map (· ++ "\n")) ++
      if showOutput then solution.output.display else "")

end Reshape
