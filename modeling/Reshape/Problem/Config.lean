import Reshape.Program.Operator

/-! What a search may use. -/
namespace Reshape

/-- The building blocks of programs, and limits on the size of column lists.
The order of each list is the order in which the search tries its elements. -/
structure Config where
  operators : List Operator
  comparisons : List Comparison
  constants : List Cell
  aggregates : List Aggregate
  arithmetic : List Arithmetic
  /-- The most columns that one `gather` turns into rows. -/
  gatherLimit : Nat
  /-- The most columns that one `gather_neg` keeps. -/
  keepLimit : Nat
deriving DecidableEq, Repr

/-- Everything is allowed and no constant is known. -/
def Config.standard : Config where
  operators := Operator.all
  comparisons := Comparison.all
  constants := []
  aggregates := Aggregate.all
  arithmetic := Arithmetic.all
  gatherLimit := 3
  keepLimit := 3

end Reshape
