import Reshape.CommandLine.Options
import Reshape.Proofs.TaskReading

/-! Settings of the command line. A task can be read and then given the settings in
place of its own, or the settings can be written over the fields of the task before
it is read: what comes of it is the same. Defaults are filled in and limits checked
at other places on the two ways, but what a default or a field of the task put where
a setting is given has no part in the result, and all else is as it was. -/
namespace Reshape.CommandLine.Options

variable {o : Options} {task result : Task} {fields : TaskFields} {value : Json}

/-- The fields of a task with the settings in their place. The operators belong to the
configuration, which is there then even if it was not before. -/
def amend (o : Options) (fields : TaskFields) : TaskFields :=
  { fields with
    config := (o.operators.map fun names =>
      { fields.config.getD .empty with operators := some names }).or fields.config
    maxSize := o.maxSize.or fields.maxSize
    timeLimit := o.timeLimit.or fields.timeLimit
    solutionLimit := o.solutionLimit.or fields.solutionLimit }

/-- The configuration to be written over. Null, or nothing, is as good as an object
without fields. -/
def configBase : Option Json → Json
  | .none | some .null => Json.object []
  | some config => config

/-- A written configuration with these operators in place of its own. -/
def overwriteConfig (config : Option Json) (names : List String) : Json :=
  (configBase config).withField ConfigFields.names "operators" (some (.list (names.map .text)))

/-- A written task with the settings written over its fields. -/
def overwrite (o : Options) (task : Json) : Json :=
  let config := task.field? TaskFields.names "config"
  task
    |>.withField TaskFields.names "config" (o.operators.map (overwriteConfig config))
    |>.withField TaskFields.names "max_prog_size" (o.maxSize.map fun n : Nat => .integer n)
    |>.withField TaskFields.names "time_limit" (o.timeLimit.map .decimal)
    |>.withField TaskFields.names "solution_limit" (o.solutionLimit.map fun n : Nat => .integer n)

section Fields

/-- Names are a list of texts. -/
theorem texts_of_names (names : List String) :
    Fields.texts? (.list (names.map .text)) = some names := by
  rw [Fields.texts?, Fields.list?, Option.bind_eq_bind, Option.bind_some, map_m_eq_some]
  exact List.forall₂_map_left_iff.mpr (List.forall₂_same.mpr fun _ _ => rfl)

theorem optional_natural (n : Nat) :
    Fields.optional Fields.natural? (some (.integer n)) = some (some n) := by
  simp [Fields.optional, Fields.natural?]

theorem config_base_some {config : Json} (present : config ≠ .null) :
    configBase (some config) = config := by
  cases config with
  | null => exact absurd rfl present
  | _ => rfl

theorem config_base_read {config : Option Json} {given : Option ConfigFields}
    (read : Fields.optional ConfigFields.ofJson? config = some given) :
    ConfigFields.ofJson? (configBase config) = some (given.getD .empty) := by
  cases config with
  | none =>
    cases read
    rfl
  | some config =>
    by_cases missing : config = .null
    · subst missing
      cases read
      rfl
    · rw [Fields.optional_of_ne _ missing] at read
      obtain ⟨fields, before, rfl⟩ := Option.map_eq_some_iff.mp read
      rw [config_base_some missing, before]
      rfl

/-- A configuration with other operators is read as one. -/
theorem overwrite_config_read {config : Option Json} {given : Option ConfigFields}
    (read : Fields.optional ConfigFields.ofJson? config = some given) (names : List String) :
    Fields.optional ConfigFields.ofJson? (some (overwriteConfig config names)) =
      some (some { given.getD .empty with operators := some names }) := by
  obtain ⟨_, _, _, _, _, _, _, found, -, rest⟩ :=
    ConfigFields.of_json_eq_some.mp (config_base_read read)
  have changed := Fields.of_json_with_field "operators" (by decide) (by decide) found
    (some (.list (names.map .text)))
  have texts : Fields.optional Fields.texts? (some (.list (names.map .text))) =
      some (some names) := congrArg (Option.map some) (texts_of_names names)
  have after : ConfigFields.ofJson? (overwriteConfig config names) =
      some { given.getD .empty with operators := some names } :=
    ConfigFields.of_json_eq_some.mpr ⟨_, _, _, _, _, _, _, changed, texts, rest⟩
  rw [Fields.optional_of_ne, after]
  · rfl
  · intro null
    rw [null] at after
    cases after

/-- Settings written over the fields of a task are read in their place. -/
theorem overwrite_read (read : TaskFields.ofJson? value = some fields) (o : Options) :
    TaskFields.ofJson? (o.overwrite value) = some (o.amend fields) := by
  obtain ⟨_, config, _, _, _, _, found, inputs, configured, maxSize, timeLimit, solutionLimit,
    expectSolution⟩ := TaskFields.of_json_eq_some.mp read
  have standing : value.field? TaskFields.names "config" = config :=
    (Option.some.inj (Fields.field_of_json "config" (by decide) found)).symm
  have first := Fields.of_json_with_field "config" (by decide) (by decide) found
    (o.operators.map (overwriteConfig config))
  have second := Fields.of_json_with_field "max_prog_size" (by decide) (by decide) first
    (o.maxSize.map fun n : Nat => .integer n)
  have third := Fields.of_json_with_field "time_limit" (by decide) (by decide) second
    (o.timeLimit.map .decimal)
  have last := Fields.of_json_with_field "solution_limit" (by decide) (by decide) third
    (o.solutionLimit.map fun n : Nat => .integer n)
  rw [overwrite, standing]
  refine TaskFields.of_json_eq_some.mpr ⟨_, _, _, _, _, _, last, inputs, ?_,
    Fields.optional_or optional_natural maxSize _, Fields.optional_or (fun _ => rfl) timeLimit _,
    Fields.optional_or optional_natural solutionLimit _, expectSolution⟩
  rw [amend]
  cases o.operators with
  | none => exact configured
  | some names => exact overwrite_config_read configured names

end Fields

theorem override_eq (o : Options) (task : Task) : o.override task = do
    let timeLimit ← (Task.timeOr o.timeLimit task.budgets.timeLimit).mapError .budget
    let operators ← (Config.orElse o.operators Config.operatorsOf
      task.problem.config.operators).mapError .config
    let budgets : Budgets := {
      maxSize := o.maxSize.getD task.budgets.maxSize
      timeLimit
      solutionLimit := o.solutionLimit.getD task.budgets.solutionLimit }
    budgets.validate.mapError .budget
    let config := { task.problem.config with operators }
    return { task with problem := { task.problem with config }, budgets } := by
  rw [override]
  cases o.timeLimit <;> cases o.operators <;> rfl

/-- Limits with settings in their place are those of the fields with the settings written
over them. -/
theorem budgets_amend {budgets changed : Budgets} (read : Task.budgetsOf fields = .ok budgets) :
    Task.budgetsOf (o.amend fields) = .ok changed ↔
      Task.timeOr o.timeLimit budgets.timeLimit = .ok changed.timeLimit ∧
        o.maxSize.getD budgets.maxSize = changed.maxSize ∧
        o.solutionLimit.getD budgets.solutionLimit = changed.solutionLimit ∧
        changed.validate = .ok () := by
  obtain ⟨time, size, solutions, -⟩ := Task.budgets_of_eq_ok.mp read
  have times : Task.timeOr (o.timeLimit.or fields.timeLimit) Budgets.standard.timeLimit =
      Task.timeOr o.timeLimit budgets.timeLimit := by
    cases o.timeLimit with
    | none => exact time
    | some seconds => rfl
  rw [Task.budgets_of_eq_ok, amend, times, Option.getD_or, Option.getD_or, size, solutions]

/-- A configuration with other operators is that of the fields with their names written
in. -/
theorem config_amend {config changed : Config}
    (read : Config.ofFields (fields.config.getD .empty) = .ok config) :
    Config.ofFields ((o.amend fields).config.getD .empty) = .ok changed ↔
      ∃ operators, Config.orElse o.operators Config.operatorsOf config.operators = .ok operators ∧
        { config with operators } = changed := by
  rw [amend]
  cases o.operators with
  | none => simp [Config.orElse, read]
  | some names =>
    refine (Eq.congr_left (Config.of_fields_with_operators read names)).trans ?_
    exact map_eq_ok

/-- **Settings and fields agree.** A task that was read takes the settings just when the
task with the settings written over its fields is read, and both come to the same task.
On either way a task has inputs, well-formed tables and valid limits, so that every run
of it has a result. -/
theorem override_agrees (read : Task.ofJson value = .ok task) (o : Options) :
    (∀ result, o.override task = .ok result ↔ Task.ofJson (o.overwrite value) = .ok result) ∧
      ∀ result, (o.override task = .ok result ∨ Task.ofJson (o.overwrite value) = .ok result) →
        result.Ready ∧ ∀ readings, ∃ synthesis,
          Search.synthesize readings result.problem result.budgets = .ok synthesis := by
  have agree (result : Task) :
      o.override task = .ok result ↔ Task.ofJson (o.overwrite value) = .ok result := by
    obtain ⟨fields, found, made⟩ := Task.of_json_eq_ok.mp read
    have written : Task.ofJson (o.overwrite value) = Task.ofFields (o.amend fields) := by
      rw [Task.ofJson, overwrite_read found]
    obtain ⟨inputs, given, target, config, budgets, expectSolution⟩ := Task.of_fields_eq_ok.mp made
    rw [written, Task.of_fields_eq_ok, budgets_amend budgets, config_amend config, override_eq]
    simp only [bind_eq_ok, map_error_eq_ok, pure_eq_ok]
    constructor
    · rintro ⟨_, time, _, operators, _, valid, rfl⟩
      exact ⟨inputs, given, target, ⟨_, operators, rfl⟩, ⟨time, rfl, rfl, valid⟩, expectSolution⟩
    · obtain ⟨⟨_, _, _⟩, ⟨_, _, _⟩, _⟩ := result
      rintro ⟨inputs', -, target', ⟨_, operators, rfl⟩, ⟨time, rfl, rfl, valid⟩, rfl⟩
      cases inputs.symm.trans inputs'
      cases target.symm.trans target'
      rw [show (o.amend fields).expectSolution = task.expectSolution from expectSolution]
      exact ⟨_, time, _, operators, _, valid, rfl⟩
  refine ⟨agree, fun result either => ?_⟩
  have ready : result.Ready :=
    Task.ready_of_json (either.elim (agree result).mp id)
  exact ⟨ready, ready.runs⟩

namespace Written

/-- A task to find what is there, with a null for its configuration. -/
def lookup : Json :=
  let rows : Json := .list [.object [("word", .text "a")], .object [("word", .text "b")]]
  .object [("inputs", .list [rows]), ("output", rows), ("config", .null),
    ("max_prog_size", .integer 1)]

/-- Settings of every kind but one. -/
def settings : Options :=
  { Options.none with
    maxSize := some 2, timeLimit := some 0.5, operators := some ["gather", "spread"] }

/-- What is looked up. -/
def words : Table := ⟨["word"], [.text], [[.text "a"], [.text "b"]]⟩

/-- The task as it is read. -/
def plain : Task where
  problem := ⟨[words], words, .standard⟩
  budgets := ⟨1, 60 * Budgets.second, 1⟩
  expectSolution := Option.none

/-- The task with the settings. -/
def changed : Task where
  problem := ⟨[words], words, { Config.standard with operators := [.gather, .spread] }⟩
  budgets := ⟨2, 500000000, 1⟩
  expectSolution := Option.none

end Written

open Written in
/-- Settings that fill in a configuration, among them half a second. -/
theorem override_agrees_lookup :
    settings.override plain = .ok changed ∧
      Task.ofJson (settings.overwrite lookup) = .ok changed ∧ changed.Ready := by
  have read : Task.ofJson lookup = .ok plain := by rfl
  have set : settings.override plain = .ok changed := by decide +kernel
  obtain ⟨agree, ready⟩ := override_agrees read settings
  exact ⟨set, (agree changed).mp set, (ready changed (.inl set)).1⟩

end Reshape.CommandLine.Options
