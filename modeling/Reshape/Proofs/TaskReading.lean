import Reshape.Problem.Task
import Reshape.Proofs.Acceptance
import Reshape.Proofs.Records

/-! What the success of reading a task says. The fields of a JSON value are found by
name in an object and by place in a list, so one of them can be written over in
either. A task that is read has inputs, valid limits and well-formed tables, so a
search for it always has a result. -/
namespace Reshape

namespace Json

/-- The value of a field. In a list the fields stand in the order of their names. -/
def field? (names : List String) (name : String) : Json → Option Json
  | .object fields => Ordered.get? name fields
  | .list items => items[names.idxOf name]?
  | _ => none

/-- A value with a field written over, where something is given for it. -/
def withField (names : List String) (name : String) (new : Option Json) (value : Json) : Json :=
  match new, value with
  | none, value => value
  | some new, .object fields => .object (Ordered.put name new fields)
  | some new, .list items => .list (items.set (names.idxOf name) new)
  | some _, value => value

end Json

namespace Fields

variable {names : List String} {value : Json} {items : List (Option Json)}

theorem of_json_object {fields : List (String × Json)} :
    ofJson? names (.object fields) = some items ↔
      (∀ field ∈ fields, field.1 ∈ names) ∧ items = names.map (Ordered.get? · fields) := by
  simp only [ofJson?, Option.ite_none_right_eq_some, Option.some.injEq, List.all_eq_true,
    decide_eq_true_eq, eq_comm (b := items)]

theorem of_json_list {values : List Json} : ofJson? names (.list values) = some items ↔
    values.length = names.length ∧ items = values.map some := by
  simp only [ofJson?, Option.ite_none_right_eq_some, Option.some.injEq, eq_comm (b := items)]

/-- A field stands at the place of its name. -/
theorem field_of_json (name : String) (known : name ∈ names)
    (read : ofJson? names value = some items) :
    items[names.idxOf name]? = some (value.field? names name) := by
  have inside := List.idxOf_lt_length_of_mem known
  cases value with
  | object fields =>
    obtain ⟨-, rfl⟩ := of_json_object.mp read
    rw [List.getElem?_map, List.getElem?_eq_getElem inside, List.getElem_idxOf]
    rfl
  | list values =>
    obtain ⟨size, rfl⟩ := of_json_list.mp read
    rw [List.getElem?_map, Json.field?, List.getElem?_eq_getElem (size ▸ inside)]
    rfl
  | _ => cases read

/-- Writing a field over changes what stands at the place of its name. -/
theorem of_json_with_field (name : String) (different : names.Nodup) (known : name ∈ names)
    (read : ofJson? names value = some items) (new : Option Json) :
    ofJson? names (value.withField names name new) =
      some (items.modify (names.idxOf name) new.or) := by
  have inside := List.idxOf_lt_length_of_mem known
  cases new with
  | none =>
    rw [Json.withField, read]
    exact congrArg some (List.modify_id _ _).symm
  | some new =>
    cases value with
    | object fields =>
      obtain ⟨fit, rfl⟩ := of_json_object.mp read
      refine of_json_object.mpr ⟨fun field member => ?_, List.ext_getElem (by simp) ?_⟩
      · rcases Ordered.mem_of_put member with rfl | before
        · exact known
        · exact fit field before
      · intro i within within'
        simp only [List.getElem_modify, List.getElem_map, Ordered.put, Ordered.get_alter]
        have bound : i < names.length := by simpa using within'
        have place : names.idxOf name = i ↔ name = names[i] := by
          constructor
          · rintro rfl
            exact (List.getElem_idxOf inside).symm
          · rintro rfl
            exact different.idxOf_getElem i bound
        by_cases here : names.idxOf name = i
        · rw [if_pos here, if_pos (place.mp here)]
          rfl
        · rw [if_neg here, if_neg (mt place.mpr here)]
    | list values =>
      obtain ⟨size, rfl⟩ := of_json_list.mp read
      refine of_json_list.mpr ⟨by simpa using size, ?_⟩
      rw [List.map_set]
      refine List.ext_getElem (by simp) fun i _ _ => ?_
      simp [List.getElem_set, List.getElem_modify]
    | _ => cases read

theorem optional_of_ne {α : Type} (read : Json → Option α) (present : value ≠ .null) :
    optional read (some value) = (read value).map some := by
  cases value with
  | null => exact absurd rfl present
  | _ => rfl

/-- A field that may be missing, written over with something that can be read. -/
theorem optional_or {α : Type} {read : Json → Option α} {write : α → Json}
    (reads : ∀ a, optional read (some (write a)) = some (some a)) {old : Option Json}
    {given : Option α} (before : optional read old = some given) (new : Option α) :
    optional read ((new.map write).or old) = some (new.or given) := by
  cases new with
  | none => exact before
  | some a => exact reads a

end Fields

/-- The fields of a configuration are read one by one. -/
theorem ConfigFields.of_json_eq_some {value : Json} {fields : ConfigFields} :
    ConfigFields.ofJson? value = some fields ↔
      ∃ operators comparisons constants aggregates arithmetic gatherLimit keepLimit,
        Fields.ofJson? names value = some [operators, comparisons, constants, aggregates,
          arithmetic, gatherLimit, keepLimit] ∧
        Fields.optional Fields.texts? operators = some fields.operators ∧
        Fields.optional Fields.texts? comparisons = some fields.comparisons ∧
        Fields.optional Fields.list? constants = some fields.constants ∧
        Fields.optional Fields.texts? aggregates = some fields.aggregates ∧
        Fields.optional Fields.texts? arithmetic = some fields.arithmetic ∧
        Fields.optional Fields.natural? gatherLimit = some fields.gatherLimit ∧
        Fields.optional Fields.natural? keepLimit = some fields.keepLimit := by
  rw [ofJson?, Option.bind_eq_bind, Option.bind_eq_some_iff]
  constructor
  · rintro ⟨items, found, read⟩
    split at read
    · simp only [Option.bind_eq_bind, Option.bind_eq_some_iff, Option.pure_def,
        Option.some.injEq] at read
      obtain ⟨_, operators, _, comparisons, _, constants, _, aggregates, _, arithmetic, _,
        gatherLimit, _, keepLimit, rfl⟩ := read
      exact ⟨_, _, _, _, _, _, _, found, operators, comparisons, constants, aggregates,
        arithmetic, gatherLimit, keepLimit⟩
    · cases read
  · rintro ⟨_, _, _, _, _, _, _, found, operators, comparisons, constants, aggregates,
      arithmetic, gatherLimit, keepLimit⟩
    refine ⟨_, found, ?_⟩
    simp only [operators, comparisons, constants, aggregates, arithmetic, gatherLimit, keepLimit]
    rfl

/-- The fields of a task are read one by one. -/
theorem TaskFields.of_json_eq_some {value : Json} {fields : TaskFields} :
    TaskFields.ofJson? value = some fields ↔
      ∃ inputs config maxSize timeLimit solutionLimit expectSolution,
        Fields.ofJson? names value = some [some inputs, some fields.output, config, maxSize,
          timeLimit, solutionLimit, expectSolution] ∧
        Fields.list? inputs = some fields.inputs ∧
        Fields.optional ConfigFields.ofJson? config = some fields.config ∧
        Fields.optional Fields.natural? maxSize = some fields.maxSize ∧
        Fields.optional Fields.number? timeLimit = some fields.timeLimit ∧
        Fields.optional Fields.natural? solutionLimit = some fields.solutionLimit ∧
        Fields.optional Fields.boolean? expectSolution = some fields.expectSolution := by
  rw [ofJson?, Option.bind_eq_bind, Option.bind_eq_some_iff]
  constructor
  · rintro ⟨items, found, read⟩
    split at read
    · simp only [Option.bind_eq_bind, Option.bind_eq_some_iff, Option.pure_def,
        Option.some.injEq] at read
      obtain ⟨_, inputs, _, config, _, maxSize, _, timeLimit, _, solutionLimit, _,
        expectSolution, rfl⟩ := read
      exact ⟨_, _, _, _, _, _, found, inputs, config, maxSize, timeLimit, solutionLimit,
        expectSolution⟩
    · cases read
  · rintro ⟨_, _, _, _, _, _, found, inputs, config, maxSize, timeLimit, solutionLimit,
      expectSolution⟩
    refine ⟨_, found, ?_⟩
    simp only [inputs, config, maxSize, timeLimit, solutionLimit, expectSolution]
    rfl

namespace Config

variable {fields : ConfigFields} {config : Config}

theorem of_fields_eq_ok : ofFields fields = .ok config ↔
    orElse fields.operators operatorsOf standard.operators = .ok config.operators ∧
      orElse fields.comparisons (lookUp Comparison.ofSymbol? .unknownComparison)
        standard.comparisons = .ok config.comparisons ∧
      orElse fields.aggregates (lookUp Aggregate.ofName? .unknownAggregate)
        standard.aggregates = .ok config.aggregates ∧
      orElse fields.arithmetic (lookUp Arithmetic.ofSymbol? .unknownArithmetic)
        standard.arithmetic = .ok config.arithmetic ∧
      orElse fields.constants (·.mapM constantOf) standard.constants = .ok config.constants ∧
      fields.gatherLimit.getD standard.gatherLimit = config.gatherLimit ∧
      fields.keepLimit.getD standard.keepLimit = config.keepLimit := by
  simp only [ofFields, bind_eq_ok, pure_eq_ok]
  constructor
  · rintro ⟨_, operators, _, comparisons, _, aggregates, _, arithmetic, _, constants, rfl⟩
    exact ⟨operators, comparisons, aggregates, arithmetic, constants, rfl, rfl⟩
  · obtain ⟨_, _, _, _, _, _, _⟩ := config
    rintro ⟨operators, comparisons, aggregates, arithmetic, constants, rfl, rfl⟩
    exact ⟨_, operators, _, comparisons, _, aggregates, _, arithmetic, _, constants, rfl⟩

/-- Other names of operators make a configuration with other operators. -/
theorem of_fields_with_operators (read : ofFields fields = .ok config) (names : List String) :
    ofFields { fields with operators := some names } =
      (operatorsOf names).map fun operators => { config with operators } := by
  obtain ⟨-, comparisons, aggregates, arithmetic, constants, gatherLimit, keepLimit⟩ :=
    of_fields_eq_ok.mp read
  simp only [ofFields, comparisons, aggregates, arithmetic, constants, gatherLimit, keepLimit,
    ok_bind]
  rw [show orElse (some names) operatorsOf standard.operators = operatorsOf names from rfl]
  cases operatorsOf names <;> rfl

end Config

namespace Task

variable {fields : TaskFields} {task : Task}

/-- A time limit in seconds, where one is given. -/
def timeOr (seconds : Option Float) (otherwise : Nat) : Except BudgetError Nat :=
  match seconds with
  | some seconds => Budgets.nanoseconds seconds
  | none => .ok otherwise

theorem budgets_of_eq (fields : TaskFields) : budgetsOf fields = do
    let timeLimit ← timeOr fields.timeLimit Budgets.standard.timeLimit
    let budgets : Budgets := {
      maxSize := fields.maxSize.getD Budgets.standard.maxSize
      timeLimit
      solutionLimit := fields.solutionLimit.getD Budgets.standard.solutionLimit }
    budgets.validate
    return budgets := by
  rw [budgetsOf]
  cases fields.timeLimit <;> rfl

theorem budgets_of_eq_ok {budgets : Budgets} : budgetsOf fields = .ok budgets ↔
    timeOr fields.timeLimit Budgets.standard.timeLimit = .ok budgets.timeLimit ∧
      fields.maxSize.getD Budgets.standard.maxSize = budgets.maxSize ∧
      fields.solutionLimit.getD Budgets.standard.solutionLimit = budgets.solutionLimit ∧
      budgets.validate = .ok () := by
  simp only [budgets_of_eq, bind_eq_ok, pure_eq_ok]
  constructor
  · rintro ⟨_, timeLimit, _, valid, rfl⟩
    exact ⟨timeLimit, rfl, rfl, valid⟩
  · obtain ⟨_, _, _⟩ := budgets
    rintro ⟨timeLimit, rfl, rfl, valid⟩
    exact ⟨_, timeLimit, _, valid, rfl⟩

/-- No configuration at all is one without fields. -/
theorem of_fields_eq (fields : TaskFields) : ofFields fields = do
    let inputs ← (fields.inputs.mapM Table.ofJson).mapError .table
    if inputs = [] then throw .noInputs
    let target ← (Table.ofJson fields.output).mapError .table
    let config ← (Config.ofFields (fields.config.getD .empty)).mapError .config
    let budgets ← (budgetsOf fields).mapError .budget
    return { problem := { inputs, target, config }, budgets,
             expectSolution := fields.expectSolution } := by
  rw [ofFields]
  cases fields.config <;> rfl

theorem of_fields_eq_ok : ofFields fields = .ok task ↔
    fields.inputs.mapM Table.ofJson = .ok task.problem.inputs ∧ task.problem.inputs ≠ [] ∧
      Table.ofJson fields.output = .ok task.problem.target ∧
      Config.ofFields (fields.config.getD .empty) = .ok task.problem.config ∧
      budgetsOf fields = .ok task.budgets ∧ fields.expectSolution = task.expectSolution := by
  simp only [of_fields_eq, bind_eq_ok, guard_eq_ok, pure_eq_ok, map_error_eq_ok]
  constructor
  · rintro ⟨_, inputs, some, _, target, _, config, _, budgets, rfl⟩
    exact ⟨inputs, some, target, config, budgets, rfl⟩
  · obtain ⟨⟨_, _, _⟩, _, _⟩ := task
    rintro ⟨inputs, some, target, config, budgets, rfl⟩
    exact ⟨_, inputs, some, _, target, _, config, _, budgets, rfl⟩

theorem of_json_eq_ok {value : Json} : ofJson value = .ok task ↔
    ∃ fields, TaskFields.ofJson? value = some fields ∧ ofFields fields = .ok task := by
  rw [ofJson]
  cases TaskFields.ofJson? value <;> simp

/-- A task that can be run: something to start from, tables as they should be, and
limits under which something can be found. -/
structure Ready (task : Task) : Prop where
  given : task.problem.inputs ≠ []
  inputs : ∀ t ∈ task.problem.inputs, t.WellFormed
  target : task.problem.target.WellFormed
  valid : task.budgets.validate = .ok ()

end Task

theorem Table.of_json_well_formed {json : Json} {t : Table} (made : ofJson json = .ok t) :
    t.WellFormed := by
  cases json with
  | list items =>
    obtain ⟨records, -, built⟩ := bind_eq_ok.mp made
    exact of_records_well_formed built
  | _ => cases made

namespace Task

variable {task : Task}

/-- A task that was read can be run. -/
theorem ready_of_json {value : Json} (read : ofJson value = .ok task) : task.Ready := by
  obtain ⟨fields, -, made⟩ := of_json_eq_ok.mp read
  obtain ⟨inputs, given, target, -, budgets, -⟩ := of_fields_eq_ok.mp made
  refine ⟨given, fun t member => ?_, Table.of_json_well_formed target,
    (budgets_of_eq_ok.mp budgets).2.2.2⟩
  obtain ⟨json, -, table⟩ := forall₂_exists_left (map_m_eq_ok.mp inputs) member
  exact Table.of_json_well_formed table

/-- A run of a task that can be run has a result. -/
theorem Ready.runs (ready : task.Ready) (readings : Nat → Nat) :
    ∃ synthesis, Search.synthesize readings task.problem task.budgets = .ok synthesis :=
  ⟨_, Search.synthesize_eq_ok readings ready.given ready.valid⟩

end Task
end Reshape
