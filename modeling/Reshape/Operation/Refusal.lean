import Reshape.Program.Operator

/-! Why an operator does not apply to a table. -/
namespace Reshape

/-- A reason that lies in the table or in how the arguments fit it. -/
inductive Refusal where
  | noColumnsSelected
  | columnListedTwice
  | uniteWithItself
  | notComparable (kind : Kind) (constant : Cell) (op : Comparison)
  | notText
  | noSeparator (text : String)
  | keyIsValue
  | repeatedKey (key : Cell)
  | nothingToSpread
  | missingCells
  | nothingToGather
  | mixedKinds
  | noGroups
  | rowsOnlyCounted
  | aggregatesGroup
  | notNumeric (column : String)
  | sameColumnTwice
  | kindsFromData
deriving DecidableEq, Repr

/-- The text of a reason. -/
def Refusal.message : Refusal → String
  | .noColumnsSelected => "no columns selected"
  | .columnListedTwice => "a column is listed twice"
  | .uniteWithItself => "cannot unite a column with itself"
  | .notComparable kind constant op =>
    s!"cannot compare {kind.name} column with {constant.literal} using {op.symbol}"
  | .notText => "only string columns can be separated"
  | .noSeparator text => s!"{Text.quoted text} has no separator"
  | .keyIsValue => "key and value must be different columns"
  | .repeatedKey key => s!"{key.display} appears twice in one group"
  | .nothingToSpread => "nothing to spread"
  | .missingCells => "the spread table would have missing cells"
  | .nothingToGather => "no columns to gather"
  | .mixedKinds => "gathered columns have different types"
  | .noGroups => "no grouping columns"
  | .rowsOnlyCounted => "only count can aggregate over rows"
  | .aggregatesGroup => "cannot aggregate a grouping column"
  | .notNumeric column => s!"column {Text.quoted column} is not numeric"
  | .sameColumnTwice => "mutate needs two different columns"
  | .kindsFromData => "output types depend on the data"

end Reshape
