import Reshape.Problem.Config
import Reshape.Problem.Error
import Reshape.Table.Json

/-! The JSON shape of configurations and tasks. Either is an object without any
field but its own, in which a null is as good as a missing field, or a list of
all its fields in their order. What the fields mean is not looked at here. -/
namespace Reshape

namespace Fields

/-- The values of these fields, in their order. -/
def ofJson? (names : List String) : Json → Option (List (Option Json))
  | .object fields =>
    if fields.all fun (name, _) => decide (name ∈ names) then
      some (names.map fun name => Ordered.get? name fields)
    else none
  | .list items => if items.length = names.length then some (items.map some) else none
  | _ => none

/-- A field that may be missing. -/
def optional {α : Type} (read : Json → Option α) : Option Json → Option (Option α)
  | none => some none
  | some .null => some none
  | some value => (read value).map some

/-- A list. -/
def list? : Json → Option (List Json)
  | .list items => some items
  | _ => none

/-- A text. -/
def text? : Json → Option String
  | .text s => some s
  | _ => none

/-- A list of texts. -/
def texts? (value : Json) : Option (List String) := do (← list? value).mapM text?

/-- A natural number, written as a whole one. -/
def natural? : Json → Option Nat
  | .integer n => if 0 ≤ n then some n.toNat else none
  | _ => none

/-- A number. -/
def number? : Json → Option Float
  | .integer n => some (Number.ofInt n)
  | .decimal x => some x
  | _ => none

/-- A truth value. -/
def boolean? : Json → Option Bool
  | .boolean b => some b
  | _ => none

end Fields

/-- A configuration as it is written: names and constants not looked up yet,
and nothing where the standard applies. -/
structure ConfigFields where
  operators : Option (List String)
  comparisons : Option (List String)
  constants : Option (List Json)
  aggregates : Option (List String)
  arithmetic : Option (List String)
  gatherLimit : Option Nat
  keepLimit : Option Nat

namespace ConfigFields

/-- The names of the fields. -/
def names : List String :=
  ["operators", "filter_op", "constants", "aggr_func", "mutate_op", "gather_max_val_list_size",
    "gather_max_key_list_size"]

/-- No field is given. -/
def empty : ConfigFields := ⟨none, none, none, none, none, none, none⟩

/-- A JSON value as the fields of a configuration. -/
def ofJson? (value : Json) : Option ConfigFields := do
  match ← Fields.ofJson? names value with
  | [operators, comparisons, constants, aggregates, arithmetic, gatherLimit, keepLimit] =>
    return {
      operators := ← Fields.optional Fields.texts? operators
      comparisons := ← Fields.optional Fields.texts? comparisons
      constants := ← Fields.optional Fields.list? constants
      aggregates := ← Fields.optional Fields.texts? aggregates
      arithmetic := ← Fields.optional Fields.texts? arithmetic
      gatherLimit := ← Fields.optional Fields.natural? gatherLimit
      keepLimit := ← Fields.optional Fields.natural? keepLimit }
  | _ => none

end ConfigFields

/-- Looks up every name of a list. -/
def lookUp {α : Type} (find? : String → Option α) (unknown : String → ConfigError)
    (names : List String) : Except ConfigError (List α) :=
  names.mapM fun name =>
    match find? name with
    | some a => .ok a
    | none => .error (unknown name)

namespace Config

/-- The operators of a list of names. -/
def operatorsOf (names : List String) : Except ConfigError (List Operator) :=
  lookUp Operator.ofName? .unknownOperator names

/-- The constant of a JSON value. -/
def constantOf (value : Json) : Except ConfigError Cell :=
  match Cell.ofJson? value with
  | some cell => .ok cell
  | none => .error (.unsupportedConstant value.write)

/-- Reads a list where one is given. -/
def orElse {α β : Type} (given : Option α) (read : α → Except ConfigError β) (standard : β) :
    Except ConfigError β :=
  match given with
  | some a => read a
  | none => .ok standard

/-- The configuration that the fields describe. -/
def ofFields (fields : ConfigFields) : Except ConfigError Config := do
  let operators ← orElse fields.operators operatorsOf standard.operators
  let comparisons ←
    orElse fields.comparisons (lookUp Comparison.ofSymbol? .unknownComparison) standard.comparisons
  let aggregates ←
    orElse fields.aggregates (lookUp Aggregate.ofName? .unknownAggregate) standard.aggregates
  let arithmetic ←
    orElse fields.arithmetic (lookUp Arithmetic.ofSymbol? .unknownArithmetic) standard.arithmetic
  let constants ← orElse fields.constants (·.mapM constantOf) standard.constants
  return {
    operators, comparisons, constants, aggregates, arithmetic
    gatherLimit := fields.gatherLimit.getD standard.gatherLimit
    keepLimit := fields.keepLimit.getD standard.keepLimit }

/-- The standard configuration with these operators alone. -/
def withOperators (names : List String) : Except ConfigError Config := do
  return { standard with operators := ← operatorsOf names }

/-- A JSON value as a configuration. -/
def ofJson (value : Json) : Except ProblemError Config :=
  match ConfigFields.ofJson? value with
  | some fields => (ofFields fields).mapError .config
  | none => .error .malformed

end Config
end Reshape
