import Reshape.Table.Basic

/-! A table as text: a line of names, a rule, and a line for each row, with the
columns padded to a common width. -/
namespace Reshape.Table

/-- A text with blanks behind it, up to `width` characters. -/
def pad (width : Nat) (text : String) : String :=
  text ++ String.ofList (List.replicate (width - text.length) ' ')

/-- One line of the layout. -/
def layoutLine (widths : List Nat) (texts : List String) : String :=
  " | ".intercalate (List.zipWith pad widths texts) ++ "\n"

/-- The width of a column: the size in bytes of its longest text, which is its
width in characters where all texts are plain. -/
def layoutWidth (t : Table) (column : Nat) : Nat :=
  (t.column column).foldl (fun width cell => max width cell.display.utf8ByteSize)
    (t.name column).utf8ByteSize

/-- The whole table as text. -/
def display (t : Table) : String :=
  let widths := t.positions.map t.layoutWidth
  let rule := widths.map fun width => String.ofList (List.replicate width '-')
  String.join (layoutLine widths t.columns :: layoutLine widths rule ::
    t.rows.map fun row => layoutLine widths (row.map Cell.display))

end Reshape.Table
