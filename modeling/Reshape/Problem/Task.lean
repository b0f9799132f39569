import Reshape.Json.Reader
import Reshape.Problem.Fields
import Reshape.Search.Synthesis

/-! Tasks: a problem and the limits of its search in one JSON text. -/
namespace Reshape

/-- A task as it is written. -/
structure TaskFields where
  inputs : List Json
  output : Json
  config : Option ConfigFields
  maxSize : Option Nat
  /-- In seconds. -/
  timeLimit : Option Float
  solutionLimit : Option Nat
  expectSolution : Option Bool

namespace TaskFields

/-- The names of the fields. -/
def names : List String :=
  ["inputs", "output", "config", "max_prog_size", "time_limit", "solution_limit",
    "expect_solution"]

/-- A JSON value as the fields of a task. -/
def ofJson? (value : Json) : Option TaskFields := do
  match ← Fields.ofJson? names value with
  | [some inputs, some output, config, maxSize, timeLimit, solutionLimit, expectSolution] =>
    return {
      inputs := ← Fields.list? inputs
      output
      config := ← Fields.optional ConfigFields.ofJson? config
      maxSize := ← Fields.optional Fields.natural? maxSize
      timeLimit := ← Fields.optional Fields.number? timeLimit
      solutionLimit := ← Fields.optional Fields.natural? solutionLimit
      expectSolution := ← Fields.optional Fields.boolean? expectSolution }
  | _ => none

end TaskFields

/-- A problem with the limits of its search. -/
structure Task where
  problem : Problem
  budgets : Budgets
  /-- Whether the search should find something, where the task says so. -/
  expectSolution : Option Bool
deriving DecidableEq, Repr

namespace Task

/-- The limits that the fields describe. -/
def budgetsOf (fields : TaskFields) : Except BudgetError Budgets := do
  let timeLimit ← match fields.timeLimit with
    | some seconds => Budgets.nanoseconds seconds
    | none => .ok Budgets.standard.timeLimit
  let budgets : Budgets := {
    maxSize := fields.maxSize.getD Budgets.standard.maxSize
    timeLimit
    solutionLimit := fields.solutionLimit.getD Budgets.standard.solutionLimit }
  budgets.validate
  return budgets

/-- The task that the fields describe. -/
def ofFields (fields : TaskFields) : Except ProblemError Task := do
  let inputs ← (fields.inputs.mapM Table.ofJson).mapError .table
  if inputs = [] then throw .noInputs
  let target ← (Table.ofJson fields.output).mapError .table
  let config ← match fields.config with
    | some config => (Config.ofFields config).mapError .config
    | none => .ok .standard
  let budgets ← (budgetsOf fields).mapError .budget
  return { problem := { inputs, target, config }, budgets, expectSolution := fields.expectSolution }

/-- A JSON value as a task. -/
def ofJson (value : Json) : Except ProblemError Task :=
  match TaskFields.ofJson? value with
  | some fields => ofFields fields
  | none => .error .malformed

/-- Reads a task. -/
def parse (text : String) : Except ProblemError Task :=
  match Json.read? text with
  | some value => ofJson value
  | none => .error .malformed

end Task

end Reshape
