import Reshape.Cell.Basic

/-! The operators of the language, and the comparisons, arithmetic and
aggregations that appear among their arguments. Each has one name, which is
how programs are printed and how configurations list it. -/
namespace Reshape

/-- The operators that turn one table into another. -/
inductive Operator where
  | select
  | unite
  | filter
  | separate
  | spread
  | gather
  | gatherNeg
  | groupSum
  | cumsum
  | mutate
  | mutateCustom
deriving DecidableEq, Repr

namespace Operator

/-- Every operator, in the order in which the search prefers them. -/
def all : List Operator :=
  [.select, .unite, .filter, .separate, .spread, .gather, .gatherNeg, .groupSum, .cumsum,
    .mutate, .mutateCustom]

/-- The name of an operator. -/
def name : Operator → String
  | .select => "select"
  | .unite => "unite"
  | .filter => "filter"
  | .separate => "separate"
  | .spread => "spread"
  | .gather => "gather"
  | .gatherNeg => "gather_neg"
  | .groupSum => "group_sum"
  | .cumsum => "cumsum"
  | .mutate => "mutate"
  | .mutateCustom => "mutate_custom"

/-- The operator of a name. -/
def ofName? (text : String) : Option Operator := all.find? (·.name = text)

/-- The number of arguments besides the table. -/
def arity : Operator → Nat
  | .select | .separate | .gather | .gatherNeg | .cumsum => 1
  | .spread => 2
  | .unite | .filter | .groupSum | .mutate | .mutateCustom => 3

/-- The operators that turn several columns into a column of names and one of
cells. -/
def gathers : Operator → Bool
  | .gather | .gatherNeg => true
  | _ => false

/-- The operators that append a computed column. -/
def appends : Operator → Bool
  | .mutate | .mutateCustom | .cumsum => true
  | _ => false

/-- The operators whose column kinds cannot be told without the data. -/
def kindsFromData : Operator → Bool
  | .spread | .separate => true
  | _ => false

/-- The operators that may produce a cell found nowhere in their table, neither
as a cell nor as a column name. -/
def createsValues : Operator → Bool
  | .unite | .separate | .groupSum | .cumsum | .mutate | .mutateCustom => true
  | _ => false

end Operator

/-- The comparisons of `filter` and `mutate_custom`. -/
inductive Comparison where
  | greater
  | less
  | equal
deriving DecidableEq, Repr

namespace Comparison

/-- Every comparison. -/
def all : List Comparison := [.greater, .less, .equal]

/-- The sign of a comparison. -/
def symbol : Comparison → String
  | .greater => ">"
  | .less => "<"
  | .equal => "=="

/-- The comparison of a sign. -/
def ofSymbol? (text : String) : Option Comparison := all.find? (·.symbol = text)

/-- Whether cells of a kind can be compared so. Only numbers have an order. -/
def accepts : Comparison → Kind → Bool
  | .equal, _ => true
  | _, kind => kind = .number

/-- Whether a comparison holds, if the two cells can be compared so. Equality
is equality of keys between cells of one kind; the order is that of the numbers
as they are. -/
def holds? (op : Comparison) (left right : Cell) : Option Bool :=
  match op with
  | .equal => if left.kind = right.kind then some (left.key = right.key) else none
  | .greater => do
    let x ← left.number?
    let y ← right.number?
    return decide (y < x)
  | .less => do
    let x ← left.number?
    let y ← right.number?
    return decide (x < y)

end Comparison

/-- The arithmetic of `mutate`. -/
inductive Arithmetic where
  | plus
  | minus
deriving DecidableEq, Repr

namespace Arithmetic

/-- Every arithmetic operation. -/
def all : List Arithmetic := [.plus, .minus]

/-- The sign of an operation. -/
def symbol : Arithmetic → String
  | .plus => "+"
  | .minus => "-"

/-- The operation of a sign. -/
def ofSymbol? (text : String) : Option Arithmetic := all.find? (·.symbol = text)

/-- The result of an operation. -/
def apply : Arithmetic → Float → Float → Float
  | .plus, x, y => x + y
  | .minus, x, y => x - y

end Arithmetic

/-- The aggregations of `group_sum`. -/
inductive Aggregate where
  | mean
  | sum
  | count
deriving DecidableEq, Repr

namespace Aggregate

/-- Every aggregation. -/
def all : List Aggregate := [.mean, .sum, .count]

/-- The name of an aggregation. -/
def name : Aggregate → String
  | .mean => "mean"
  | .sum => "sum"
  | .count => "count"

/-- The aggregation of a name. -/
def ofName? (text : String) : Option Aggregate := all.find? (·.name = text)

/-- The sum of numbers from the first to the last. It starts from negative
zero, which is the number that adds nothing to any other. -/
def total (values : List Float) : Float := values.foldl (· + ·) (-0.0)

/-- The aggregate of the values of one group. -/
def apply (f : Aggregate) (values : List Float) : Float :=
  let size := Number.nearest false values.length 1
  match f with
  | .mean => total values / size
  | .sum => total values
  | .count => size

end Aggregate
end Reshape
