import Reshape.Problem.Task

/-! What a command line asks for: task files, and settings that replace those
of every task. An option takes its value from behind an equals sign or from the
next word, and no option may be given twice. -/
namespace Reshape.CommandLine

/-- The settings of a command line. -/
structure Options where
  paths : List String
  maxSize : Option Nat
  /-- In seconds. -/
  timeLimit : Option Float
  solutionLimit : Option Nat
  operators : Option (List String)
  showOutput : Bool
  report : Bool
deriving DecidableEq, Repr

namespace Options

/-- Nothing is asked for. -/
def none : Options := ⟨[], .none, .none, .none, .none, false, false⟩

/-- A natural number of at most 64 bits, with an optional plus sign. -/
def word? (text : String) : Option Nat :=
  let digits := match text.toList with
    | '+' :: rest => rest
    | chars => chars
  (Number.natural? digits).filter (· ≤ Json.largestWord)

/-- The parts of a text between commas. -/
def commaParts (text : String) : List String :=
  (Text.parts ',' text.toList).map String.ofList

/-- Sets an option that takes a value. Only the operators may be given more
than once, and then all of them count. -/
def setValue? (o : Options) (name value : String) : Option Options :=
  match name with
  | "max-prog-size" => do
    guard o.maxSize.isNone
    return { o with maxSize := some (← word? value) }
  | "time-limit" => do
    guard o.timeLimit.isNone
    return { o with timeLimit := some (← Number.ofText? value.toList) }
  | "solution-limit" => do
    guard o.solutionLimit.isNone
    return { o with solutionLimit := some (← word? value) }
  | "operators" =>
    some { o with operators := some (o.operators.getD [] ++ commaParts value) }
  | _ => .none

/-- Sets an option without a value. -/
def setFlag? (o : Options) (name : String) : Option Options :=
  match name with
  | "show-output" => if o.showOutput then .none else some { o with showOutput := true }
  | "report" => if o.report then .none else some { o with report := true }
  | _ => .none

/-- Adds a task file. -/
def addPath? (o : Options) (path : String) : Option Options :=
  if path = "" then .none else some { o with paths := o.paths ++ [path] }

/-- Whether a word may stand where a value is due. -/
def isValue (argument : String) : Bool :=
  match argument.toList with
  | '-' :: _ :: _ => false
  | _ => true

/-- Takes in the words of a command line. Behind two dashes alone, every word is
a task file. -/
def read? (o : Options) : List String → Option Options
  | [] => some o
  | argument :: rest =>
    match argument.toList with
    | ['-', '-'] => rest.foldlM addPath? o
    | '-' :: '-' :: body =>
      match Text.splitFirst? (· = '=') body with
      | some (name, value) => do (← o.setValue? (.ofList name) (.ofList value)).read? rest
      | .none =>
        match o.setFlag? (.ofList body), rest with
        | some o, rest => o.read? rest
        | .none, value :: rest =>
          if isValue value then do (← o.setValue? (.ofList body) value).read? rest else .none
        | .none, [] => .none
    | '-' :: _ :: _ => .none
    | _ => do (← o.addPath? argument).read? rest

/-- The settings that the words of a command line give. -/
def parse? (arguments : List String) : Option Options := none.read? arguments

/-- The task with the settings of the command line in place of its own. -/
def override (o : Options) (task : Task) : Except ProblemError Task := do
  let timeLimit ← match o.timeLimit with
    | some seconds => (Budgets.nanoseconds seconds).mapError .budget
    | .none => .ok task.budgets.timeLimit
  let operators ← match o.operators with
    | some names => (Config.operatorsOf names).mapError .config
    | .none => .ok task.problem.config.operators
  let budgets : Budgets := {
    maxSize := o.maxSize.getD task.budgets.maxSize
    timeLimit
    solutionLimit := o.solutionLimit.getD task.budgets.solutionLimit }
  budgets.validate.mapError .budget
  let config := { task.problem.config with operators }
  return { task with problem := { task.problem with config }, budgets }

end Options
end Reshape.CommandLine
