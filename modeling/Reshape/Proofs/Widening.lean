import Reshape.Proofs.CanonicalPrograms
import Reshape.Proofs.Completeness

/-! Wider problems. More inputs behind those there are, and a configuration that
allows whatever was allowed, leave every program that was wanted wanted: each
domain offers at least what it did, the rules still let the operators in, and
the premises and the values beneath are as they were. A constant need only be
listed up to the sign of zero, and then the program found is equal in value. -/
namespace Reshape

/-- All that a configuration allows is allowed by another one. Constants count
as listed there when they differ in the sign of zero. -/
structure Config.Within (config config' : Config) : Prop where
  operators : config.operators ⊆ config'.operators
  comparisons : config.comparisons ⊆ config'.comparisons
  constants : ∀ cell ∈ config.constants, ∃ cell' ∈ config'.constants,
    cell'.canonical = cell.canonical
  aggregates : config.aggregates ⊆ config'.aggregates
  arithmetic : config.arithmetic ⊆ config'.arithmetic
  gathered : config.gatherLimit ≤ config'.gatherLimit
  kept : config.keepLimit ≤ config'.keepLimit

/-- Another problem has the same target, all the inputs and maybe more behind
them, and allows at least as much. -/
structure Problem.Within (problem problem' : Problem) : Prop where
  inputs : problem.inputs <+: problem'.inputs
  target : problem'.target = problem.target
  config : problem.config.Within problem'.config

/-- For each of some arguments there is one of equal value among the others. -/
def Argument.Covers (values' values : List Argument) : Prop :=
  ∀ value ∈ values, ∃ value' ∈ values', value'.canonical = value.canonical

theorem Argument.covers_of_subset {values values' : List Argument} (subset : values ⊆ values') :
    Covers values' values :=
  fun value member => ⟨value, subset member, rfl⟩

theorem column_choices_subset {limit limit' : Nat} (le : limit ≤ limit') (bound width : Nat) :
    columnChoices (min limit bound) width ⊆ columnChoices (min limit' bound) width := by
  intro columns chosen
  obtain ⟨sub, some, bounded⟩ := mem_column_choices.mp chosen
  exact mem_column_choices.mpr ⟨sub, some, by omega⟩

namespace Config.Within

variable {config config' : Config} (wider : config.Within config')
include wider

theorem comparisons_of (kind : Kind) : config.comparisonsOf kind ⊆ config'.comparisonsOf kind :=
  List.map_subset _ (List.filter_subset _ wider.comparisons)

theorem constants_of (kind : Kind) :
    Argument.Covers (config'.constantsOf kind) (config.constantsOf kind) := by
  intro value member
  obtain ⟨cell, held, rfl⟩ := List.mem_map.mp member
  obtain ⟨listed, same⟩ := List.mem_filter.mp held
  obtain ⟨cell', listed', value⟩ := wider.constants cell listed
  have kind' : cell'.kind = kind := by
    rw [← Cell.kind_canonical, value, Cell.kind_canonical, of_decide_eq_true same]
  exact ⟨.constant cell', List.mem_map_of_mem (List.mem_filter.mpr ⟨listed', decide_eq_true kind'⟩),
    congrArg Argument.constant value⟩

/-- Each domain offers at least what it did. -/
theorem domain {step : Step} {position : Nat} {t : Table} {values : List Argument}
    (offered : step.domain position t config = .ok values) :
    ∃ values', step.domain position t config' = .ok values' ∧ Argument.Covers values' values := by
  have unchanged : Argument.Covers values values :=
    Argument.covers_of_subset (List.Subset.refl _)
  cases Step.offered_of_ok offered with
  | comparisons op here =>
    exact ⟨_, Step.ok_of_offered (.comparisons op here),
      Argument.covers_of_subset (wider.comparisons_of _)⟩
  | constants op here =>
    exact ⟨_, Step.ok_of_offered (.constants op here), wider.constants_of _⟩
  | gathered op =>
    refine ⟨_, Step.ok_of_offered (.gathered op),
      Argument.covers_of_subset (List.map_subset _ ?_)⟩
    exact List.filter_subset _ (column_choices_subset wider.gathered _ _)
  | kept op =>
    refine ⟨_, Step.ok_of_offered (.kept op), Argument.covers_of_subset (List.map_subset _ ?_)⟩
    exact List.filter_subset _ (column_choices_subset wider.kept _ _)
  | targets op read =>
    refine ⟨_, Step.ok_of_offered (.targets op read),
      Argument.covers_of_subset (List.append_subset.mpr ⟨?_, ?_⟩)⟩
    · exact List.subset_append_left _ _
    -- Counting rows is offered where counting is listed.
    · split
      · rename_i counts
        rw [if_pos (wider.aggregates counts)]
        exact List.subset_append_right _ _
      · exact List.nil_subset _
  | aggregates op read =>
    refine ⟨_, Step.ok_of_offered (.aggregates op read),
      Argument.covers_of_subset (List.map_subset _ ?_)⟩
    exact List.filter_subset _ wider.aggregates
  | arithmetic op =>
    exact ⟨_, Step.ok_of_offered (.arithmetic op),
      Argument.covers_of_subset (List.map_subset _ wider.arithmetic)⟩
  -- All other domains look at the table and at earlier arguments alone.
  | columnLists op => exact ⟨_, Step.ok_of_offered (.columnLists op), unchanged⟩
  | everyColumn op => exact ⟨_, Step.ok_of_offered (.everyColumn op), unchanged⟩
  | laterColumns op here => exact ⟨_, Step.ok_of_offered (.laterColumns op here), unchanged⟩
  | separator op => exact ⟨_, Step.ok_of_offered (.separator op), unchanged⟩
  | separable op => exact ⟨_, Step.ok_of_offered (.separable op), unchanged⟩
  | otherColumns op here => exact ⟨_, Step.ok_of_offered (.otherColumns op here), unchanged⟩
  | countOfRows op read => exact ⟨_, Step.ok_of_offered (.countOfRows op read), unchanged⟩
  | numericColumns op => exact ⟨_, Step.ok_of_offered (.numericColumns op), unchanged⟩
  | addends op here read => exact ⟨_, Step.ok_of_offered (.addends op here read), unchanged⟩
  | subtrahends op here read =>
    exact ⟨_, Step.ok_of_offered (.subtrahends op here read), unchanged⟩

/-- Arguments that can be drawn have some of equal value that can be drawn. -/
theorem drawing {t : Table} {op : Operator} {given : List Argument}
    (drawn : Drawing config t op given) :
    ∃ given', given'.map Argument.canonical = given.map Argument.canonical ∧
      Drawing config' t op given' := by
  induction drawn with
  | nothing => exact ⟨[], rfl, .nothing⟩
  | @next given value values _ room offered taken ih =>
    obtain ⟨given', same, drawn'⟩ := ih
    obtain ⟨values', offered', covers⟩ := wider.domain offered
    obtain ⟨value', taken', equal⟩ := covers value taken
    have length : given'.length = given.length := by simpa using congrArg List.length same
    have steps (holes : List Argument) :
        Step.canonical ⟨op, given' ++ holes⟩ = Step.canonical ⟨op, given ++ holes⟩ := by
      simp [Step.canonical, same]
    refine ⟨given' ++ [value'], by simp [same, equal], drawn'.next (length ▸ room) ?_ taken'⟩
    rw [length, ← Step.domain_canonical, steps, Step.domain_canonical, offered']

theorem chosen {t : Table} {step : Step} {choice : List Nat}
    (chosen : step.Chosen config t choice) :
    ∃ step' : Step, step'.canonical = step.canonical ∧
      ∃ choice', step'.Chosen config' t choice' := by
  obtain ⟨drawn, total⟩ := Step.chosen_iff_drawing.mp ⟨choice, chosen⟩
  obtain ⟨arguments, same, drawn'⟩ := wider.drawing drawn
  have length : arguments.length = step.arguments.length := by
    simpa using congrArg List.length same
  exact ⟨⟨step.operator, arguments⟩, congrArg (Step.mk step.operator) same,
    Step.chosen_iff_drawing.mpr ⟨drawn', length.trans total⟩⟩

end Config.Within

section MoreInputs

variable {inputs inputs' : List Table} (more : inputs <+: inputs') {input : Nat} {target t : Table}
include more

/-- What steps make of an input does not depend on the inputs behind it. -/
theorem eval_more_inputs {steps : List Step} (value : evalSteps inputs input steps = .ok t) :
    evalSteps inputs' input steps = .ok t := by
  induction steps generalizing t with
  | nil =>
    obtain ⟨later, rfl⟩ := more
    rw [Search.eval_input_eq_ok] at value ⊢
    rw [List.getElem?_append_left (List.getElem?_eq_some_iff.mp value).1, value]
  | cons step rest ih =>
    obtain ⟨below, beneath, ran⟩ := bind_eq_ok.mp value
    exact bind_eq_ok.mpr ⟨below, ih beneath, ran⟩

/-- With more inputs there are fewer new values and more separators, so the
rules let in what they did. -/
theorem Admissible.more_inputs {operators : List Operator}
    (rules : Admissible operators (.of inputs target)) :
    Admissible operators (.of inputs' target) := by
  have separators : (Context.of inputs target).hasSeparator = true →
      (Context.of inputs' target).hasSeparator = true := by
    simp only [Context.of, List.any_eq_true]
    rintro ⟨t, given, separable⟩
    exact ⟨t, more.subset given, separable⟩
  have news : (Context.of inputs' target).newValues = true →
      (Context.of inputs target).newValues = true := by
    simp only [Context.of, List.any_eq_true, decide_eq_true_eq]
    rintro ⟨cell, held, unknown⟩
    refine ⟨cell, held, fun known => unknown ?_⟩
    obtain ⟨t, given, member⟩ := List.mem_flatMap.mp known
    exact List.mem_flatMap.mpr ⟨t, more.subset given, member⟩
  exact { rules with
    separable := fun held => separators (rules.separable held)
    creating := fun new => rules.creating (news new) }

end MoreInputs

namespace Problem.Within

variable {problem problem' : Problem} (wider : problem.Within problem')
include wider

/-- Programs equal in value have the same output on the inputs and on more. -/
theorem eval {input : Nat} {steps steps' : List Step} {t : Table}
    (same : steps'.map Step.canonical = steps.map Step.canonical)
    (value : evalSteps problem.inputs input steps = .ok t) :
    evalSteps problem'.inputs input steps' = .ok t :=
  (eval_steps_congr same).mpr (eval_more_inputs wider.inputs value)

theorem filled {input : Nat} {steps : List Step} {choice : List Nat}
    (filled : Filled problem.inputs problem.config input [] steps choice) :
    ∃ steps', steps'.map Step.canonical = steps.map Step.canonical ∧
      ∃ choice', Filled problem'.inputs problem'.config input [] steps' choice' := by
  induction filled with
  | nothing => exact ⟨[], rfl, [], .nothing⟩
  | @around outer step _ _ below _ beneath chosen ih =>
    obtain ⟨outer', same, choice, filled'⟩ := ih
    obtain ⟨step', equal, own, chosen'⟩ := wider.config.chosen chosen
    rw [List.append_nil] at beneath
    have beneath' := wider.eval same beneath
    refine ⟨step' :: outer', by rw [List.map_cons, List.map_cons, equal, same], choice ++ own, ?_⟩
    exact .around filled' (by rwa [List.append_nil]) chosen'

/-- **A wanted program stays wanted**, up to the value of its constants. -/
theorem wanted {maxSize : Nat} {p : Program} (wanted : Wanted problem maxSize p) :
    ∃ p' : Program, p'.canonical = p.canonical ∧ Wanted problem' maxSize p' := by
  obtain ⟨choice, filled⟩ := filled_iff.mpr wanted.drawn
  obtain ⟨steps, same, filled'⟩ := wider.filled filled
  have operators : Program.operators ⟨p.input, steps⟩ = p.operators := by
    have read (steps : List Step) :
        steps.map Step.operator = (steps.map Step.canonical).map Step.operator := by
      rw [List.map_map]
      rfl
    rw [Program.operators, read, same, ← read, Program.operators]
  have size : Program.size ⟨p.input, steps⟩ = p.size := by
    simpa [Program.size] using congrArg List.length same
  obtain ⟨premise, first, each, meets⟩ := wanted.premises
  refine ⟨⟨p.input, steps⟩, congrArg (Program.mk p.input) same, ?_⟩
  refine ⟨wanted.reads.trans_le wider.inputs.length_le, size.trans_le wanted.small, ?_, ?_,
    filled_iff.mp filled', premise, first.trans wider.target.symm, ?_, ?_⟩
  · rw [operators]
    exact fun op held => wider.config.operators (wanted.configured op held)
  · rw [operators, wider.target]
    exact is_admissible_iff.mpr ((is_admissible_iff.mp wanted.admissible).more_inputs wider.inputs)
  · rwa [operators]
  · intro d inside
    obtain ⟨t, value, included⟩ := meets d (size ▸ inside)
    refine ⟨t, wider.eval ?_ value, included⟩
    rw [List.map_drop, same, List.map_drop]

end Problem.Within

namespace Search

variable {problem problem' : Problem} {budgets budgets' : Budgets}

/-- A program equal in value to a solution has the same output and alignment. -/
theorem final_check_widened (wider : problem.Within problem') {s : Solution} {p : Program}
    (checked : finalCheck problem s.program = some s)
    (same : p.canonical = s.program.canonical) :
    finalCheck problem' p = some { s with program := p } := by
  obtain ⟨-, made, aligned⟩ := final_check_eq_some.mp checked
  have reads : p.input = s.program.input := (congrArg Program.input same :)
  have steps : p.steps.map Step.canonical = s.program.steps.map Step.canonical :=
    (congrArg Program.steps same :)
  refine final_check_eq_some.mpr ⟨rfl, ?_, wider.target ▸ aligned⟩
  rw [Program.eval, reads]
  exact wider.eval steps made

/-- **Widening a problem loses no solution.** Let a second problem have the
inputs of the first and any further ones behind them, the same target, and a
configuration that lists all operators, comparisons, constants, aggregates and
arithmetic of the first and lets column lists be as long. Whatever a run accepts
for the first problem, a run for the second that looks at programs as large and
that nothing ends early accepts as well, with the same output and alignment.
Programs are the same here when they are equal in value. -/
theorem synthesize_widened (readings readings' : Nat → Nat) (given : problem.inputs ≠ [])
    (wider : problem.Within problem') (shapedInputs : ∀ t ∈ problem'.inputs, t.Shaped)
    (shapedTarget : problem.target.Shaped) (valid : budgets.validate = .ok ())
    (valid' : budgets'.validate = .ok ()) (larger : budgets.maxSize ≤ budgets'.maxSize)
    (inTime : ¬ Expires readings' problem' budgets') :
    ∃ result result', synthesize readings problem budgets = .ok result ∧
      synthesize readings' problem' budgets' = .ok result' ∧
      (result'.solutions.length < budgets'.solutionLimit →
        ∀ s ∈ result.solutions, ∃ s' ∈ result'.solutions,
          s'.program.canonical = s.program.canonical ∧ s'.output = s.output ∧
            s'.alignment = s.alignment) := by
  have given' : problem'.inputs ≠ [] := fun none =>
    given (List.prefix_nil.mp (none ▸ wider.inputs))
  refine ⟨_, _, synthesize_eq_ok readings given valid, synthesize_eq_ok readings' given' valid',
    fun unfilled s member => ?_⟩
  have shaped (t : Table) (held : t ∈ problem.inputs) : t.Shaped :=
    shapedInputs t (wider.inputs.subset held)
  obtain ⟨p, same, wanted⟩ :=
    wider.wanted ((outcome_wanted readings shaped shapedTarget member).mono larger)
  obtain ⟨s', member', equal⟩ :=
    solutions_up_to_cover shapedInputs (wider.target ▸ shapedTarget) wanted
  rw [← outcome_complete valid' inTime unfilled] at member'
  have checked := (outcome_kept readings problem budgets).1 s member
  have checked' := (outcome_kept readings' problem' budgets').1 s' member'
  rw [final_check_widened wider checked (equal.trans same), Option.some.injEq] at checked'
  exact ⟨{ s with program := s'.program }, by rwa [checked'], equal.trans same, rfl, rfl⟩

/-- What is on some accounts, of which it is asked whether that is anything. -/
def accounts : Problem where
  inputs := [⟨["name", "amount"], [.text, .number],
    [[.text "a", .number 5], [.text "b", .number 0]]⟩]
  target := ⟨["used"], [.boolean], [[.boolean true], [.boolean false]]⟩
  config := { Config.standard with
    operators := [.mutateCustom], comparisons := [.greater], constants := [.number 0] }

/-- The same with another input and more to try. Zero is listed with a sign. -/
def moreAccounts : Problem where
  inputs := accounts.inputs ++ [⟨["amount"], [.number], [[.number 2]]⟩]
  target := accounts.target
  config := { Config.standard with
    operators := [.cumsum, .mutateCustom], constants := [.number 1, .number (-0.0)] }

theorem within_more_accounts : accounts.Within moreAccounts where
  inputs := List.prefix_append _ _
  target := rfl
  config := by
    constructor
    case constants =>
      intro cell member
      cases List.mem_singleton.mp member
      exact ⟨.number (-0.0), by decide +kernel, by decide +kernel⟩
    all_goals decide

theorem synthesize_widened_accounts :
    ∃ result result', synthesize (fun _ => 0) accounts ⟨1, 1, 9⟩ = .ok result ∧
      synthesize (fun _ => 0) moreAccounts ⟨2, 1, 99⟩ = .ok result' ∧
      result.solutions.length = 1 ∧ result'.solutions.length = 4 ∧
      ∀ s ∈ result.solutions, ∃ s' ∈ result'.solutions,
        s'.program.canonical = s.program.canonical ∧ s'.output = s.output ∧
          s'.alignment = s.alignment := by
  have shapedInputs : ∀ t ∈ moreAccounts.inputs, t.Shaped := by
    simp only [moreAccounts, accounts, List.cons_append, List.nil_append, List.forall_mem_cons,
      List.not_mem_nil, false_implies, implies_true, and_true]
    exact ⟨⟨rfl, by simp⟩, rfl, by simp⟩
  have shapedTarget : accounts.target.Shaped := ⟨rfl, by simp [accounts]⟩
  have valid : Budgets.validate ⟨1, 1, 9⟩ = .ok () := rfl
  have valid' : Budgets.validate ⟨2, 1, 99⟩ = .ok () := rfl
  have inTime : ¬ Expires (fun _ => 0) moreAccounts ⟨2, 1, 99⟩ :=
    not_expires_of_early (fun _ => Nat.one_pos) moreAccounts
  obtain ⟨result, result', ran, ran', kept⟩ := synthesize_widened (fun _ => 0) (fun _ => 0)
    (by decide) within_more_accounts shapedInputs shapedTarget valid valid' (Nat.le_succ 1) inTime
  have one : (synthesize (fun _ => 0) accounts ⟨1, 1, 9⟩).map (·.solutions.length) = .ok 1 := by
    decide +kernel
  have four : (synthesize (fun _ => 0) moreAccounts ⟨2, 1, 99⟩).map (·.solutions.length) =
      .ok 4 := by
    decide +kernel
  rw [ran, map_eq_ok] at one
  rw [ran', map_eq_ok] at four
  obtain ⟨_, ⟨⟩, length⟩ := one
  obtain ⟨_, ⟨⟩, length'⟩ := four
  exact ⟨result, result', ran, ran', length, length', kept (by rw [length']; decide)⟩

end Search
end Reshape
