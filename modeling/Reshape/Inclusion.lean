import Reshape.Table.Basic

/-! Inclusion of one table in another. A required table is included in an
actual one when its columns can be sent to different columns of the actual
table so that every row of the required table occurs among the actual rows, cut
down to those columns, at least as often. Names play no part, and cells count
as equal when their keys are. In exact mode the columns have to match one to
one and every row has to occur equally often. -/
namespace Reshape

/-- How closely one table has to match another. -/
inductive Matching where
  | included
  | exact
deriving DecidableEq, Repr

namespace Matching

/-- Whether the sizes of the tables leave room for a match. -/
def sizesFit (mode : Matching) (required actual : Table) : Bool :=
  match mode with
  | .included => decide (required.width ≤ actual.width ∧ required.height ≤ actual.height)
  | .exact => decide (required.width = actual.width ∧ required.height = actual.height)

/-- Whether a column with these keys may be sent to one with those. -/
def columnFits (mode : Matching) (required actual : List Cell) : Bool :=
  match mode with
  | .included => countedIn required actual
  | .exact =>
    decide ((firstsBy id required).length = (firstsBy id actual).length) &&
      required.all fun cell => required.count cell = actual.count cell

/-- Whether the rows match, all given by their keys and the actual ones already
cut down to the columns in question. -/
def rowsFit (mode : Matching) (required actual : List Row) : Bool :=
  match mode with
  | .included => countedIn required actual
  | .exact => countedIn required actual && countedIn actual required

end Matching

namespace Table

/-- The rows by their keys. -/
def keys (t : Table) : List Row := t.rows.map Row.key

/-- The first list, in lexicographic order, that takes one element from each
list of options, none twice, and is accepted. -/
def firstAssignment (accept : List Nat → Bool) :
    (options : List (List Nat)) → (taken : List Nat) → Option (List Nat)
  | [], taken => if accept taken then some taken else none
  | here :: rest, taken =>
    here.findSome? fun c =>
      if c ∈ taken then none else firstAssignment accept rest (taken ++ [c])

/-- The columns of the actual table to which each required column may go. -/
def alignOptions (mode : Matching) (required actual : Table) : List (List Nat) :=
  let wanted := required.keys
  let held := actual.positions.map fun c => (c, actual.keys.map (Row.at · c))
  required.positions.map fun c =>
    let column := wanted.map (Row.at · c)
    held.filterMap fun (d, other) => if mode.columnFits column other then some d else none

/-- The lexicographically first way to send the columns of the required table
to columns of the actual one under which it matches. -/
def align (mode : Matching) (required actual : Table) : Option (List Nat) :=
  if mode.sizesFit required actual then
    let options := alignOptions mode required actual
    if options.any List.isEmpty then none
    else
      let wanted := required.keys
      let held := actual.keys
      firstAssignment (fun mapping => mode.rowsFit wanted (held.map (Row.pick · mapping)))
        options []
  else none

/-- Whether a table is included in another. -/
def includedIn (required actual : Table) : Bool := (align .included required actual).isSome

/-- Whether two tables hold the same rows under some matching of their
columns. -/
def equivalentTo (required actual : Table) : Bool := (align .exact required actual).isSome

end Table
end Reshape
