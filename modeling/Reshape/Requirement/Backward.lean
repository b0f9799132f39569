import Reshape.Choice
import Reshape.Operation.Columns

/-! Requirements pushed back through an operator. If the output of an operator
has to include a table, its input would plausibly have to include one of the
tables given here. The rules are guesses in both directions, so they only steer
the search and never decide what it accepts. -/
namespace Reshape

open Text (Names)

namespace Table

/-- The columns whose texts a split or a join may have produced. -/
def joinable (t : Table) : List Nat :=
  t.positions.filter fun c => t.kind c = .text ∨ t.kind c = .number

/-- The table without some columns, each remaining row once. -/
def without (t : Table) (columns : List Nat) : Table := (t.drop columns).dedup

/-- The tables that may have been united into this one. A text column whose
every cell has the joining character is split at the first of them and, where
that makes a difference, at the last. -/
def ununited (t : Table) : List Table :=
  (t.columnsOf .text).flatMap fun c =>
    let isJoint := (· = Text.uniteSeparator)
    let texts := (t.column c).map cellText
    match texts.mapM (Text.splitFirst? isJoint), texts.mapM (Text.splitLast? isJoint) with
    | some firsts, some lasts =>
      t.splitColumn c firsts :: if firsts = lasts then [] else [t.splitColumn c lasts]
    | _, _ => []

/-- The table with two columns joined by a separator. -/
def joined (t : Table) (left right : Nat) (separator : Char) : Table :=
  let joint := String.ofList [separator]
  t.splice left [right] [(t.newName (t.name left ++ joint ++ t.name right), .text)]
    (t.rows.map fun row => [joinCells joint (row.at left) (row.at right)])

/-- The tables that may have been separated into this one: each pair of columns
joined by each separator, the earlier column first. -/
def unseparated (t : Table) : List Table :=
  (choose 2 t.joinable).flatMap fun pair =>
    match pair with
    | [left, right] => Text.separators.map (t.joined left right)
    | _ => []

/-- The long table behind a wide one: some columns stay, and the cells of all
others, which have to be of one kind, stand below each other. What named the
wide columns is not rebuilt. -/
def molten? (t : Table) (ids : List Nat) : Option Table :=
  match t.others ids with
  | [] => none
  | first :: rest =>
    if rest.any fun c => t.kind c ≠ t.kind first then none
    else
      let (name, _) := (Names.reserving (ids.map t.name)).claim "VALUE"
      some (Table.dedup {
        columns := ids.map t.name ++ [name]
        kinds := ids.map t.kind ++ [t.kind first]
        rows := t.rows.flatMap fun row =>
          (first :: rest).map fun c => row.pick ids ++ [row.at c] })

/-- The tables that may have been spread into this one, with at most two
columns that stay. -/
def unspread (t : Table) : List Table :=
  (List.range (min 2 (t.width - 1) + 1)).flatMap fun k =>
    (combinations t.width k).filterMap t.molten?

end Table

/-- The requirements on the input of an operator, in the order in which they
are tried and with repetitions, before the input has to include `required`
itself. -/
def Operator.undone (op : Operator) (required : Table) : List Table :=
  match op with
  | .select | .filter => [required]
  | .unite => required.ununited
  | .separate => required.joinable.map (fun c => required.without [c]) ++ required.unseparated
  | .spread => required.unspread
  | .gather | .gatherNeg =>
    ((combinations required.width 2).filter fun pair =>
      pair.any fun c => required.kind c = .text).map required.without
  | .mutate | .cumsum | .groupSum => (required.columnsOf .number).map fun c => required.without [c]
  | .mutateCustom => (required.columnsOf .boolean).map fun c => required.without [c]

/-- Whether an operator below others may leave what is required untouched, so
that its input has to include it already. -/
def Operator.passesOn : Operator → Bool
  | .select | .filter | .spread => false
  | _ => true

/-- The requirements on the input of an operator whose output has to include
`required`, each once. The outermost operator must have done visible work. -/
def Operator.backward (op : Operator) (required : Table) (outermost : Bool) : List Table :=
  let kept := if op.passesOn && !outermost then [required] else []
  firstsBy Table.canonical (kept ++ op.undone required)

end Reshape
