import Reshape.Problem.Budgets
import Reshape.Table.Basic

/-! Why a problem cannot be posed. -/
namespace Reshape

/-- A name or constant that a configuration must not hold. -/
inductive ConfigError where
  | unknownOperator (name : String)
  | unknownComparison (name : String)
  | unknownAggregate (name : String)
  | unknownArithmetic (name : String)
  /-- A constant that no cell can hold, given as it was written. -/
  | unsupportedConstant (value : String)
deriving DecidableEq, Repr

/-- The text of an error. -/
def ConfigError.message : ConfigError → String
  | .unknownOperator name => "Unknown operator: " ++ name
  | .unknownComparison name => "Unknown comparison operator: " ++ name
  | .unknownAggregate name => "Unknown aggregation function: " ++ name
  | .unknownArithmetic name => "Unknown mutate operator: " ++ name
  | .unsupportedConstant value => "Unsupported constant: " ++ value

/-- Anything that keeps a search from starting. -/
inductive ProblemError where
  | config (e : ConfigError)
  | table (e : TableError)
  | noInputs
  | budget (e : BudgetError)
  /-- A text that is no JSON, or JSON of another shape. -/
  | malformed
  /-- A file that could not be read, and why. -/
  | unreadable (path cause : String)
deriving DecidableEq, Repr

/-- The text of an error. -/
def ProblemError.message : ProblemError → String
  | .config e => e.message
  | .table e => e.message
  | .noInputs => "Synthesis needs at least one input table"
  | .budget e => e.message
  | .malformed => "not a task in JSON"
  | .unreadable path cause => "IO error: " ++ path ++ ": " ++ cause

end Reshape
