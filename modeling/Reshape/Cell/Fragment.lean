import Reshape.Cell.Basic
import Reshape.Number.Reading
import Reshape.Text.Blank

/-! Fragments of texts as cells. When a text column is split, each half
becomes a number column if every fragment on that side is the text of a finite
number, blanks around it aside, and stays a text column otherwise. -/
namespace Reshape.Cell

/-- The finite number that a fragment stands for. -/
def fragmentNumber? (fragment : List Char) : Option Float :=
  (Number.ofText? (Text.trim fragment)).filter Float.isFinite

/-- A fragment as a cell of its own: a number if it is the text of one. -/
def ofFragment (fragment : List Char) : Cell :=
  match fragmentNumber? fragment with
  | some x => .number x
  | none => .text (.ofList fragment)

/-- The kind of a column of fragments, and its cells. A column without
fragments holds text. -/
def ofFragments (fragments : List (List Char)) : Kind × List Cell :=
  if fragments ≠ [] ∧ fragments.all fun f => (fragmentNumber? f).isSome then
    (.number, fragments.map ofFragment)
  else (.text, fragments.map fun f => .text (.ofList f))

end Reshape.Cell
