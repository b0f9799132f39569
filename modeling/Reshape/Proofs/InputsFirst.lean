import Reshape.Proofs.Origins
import Reshape.Proofs.Truncation

/-! Inputs that include the target already. They are programs without operators,
and a search comes to them before anything else. Where an input includes the
target, the target has no new values, so the rules for operators let the
references in; each of them has one chain of premises, the target alone. So the
first solutions are these inputs in their order. -/
namespace Reshape

/-- A target that is included in an input has no new values. -/
theorem Context.new_values_of_included {inputs : List Table} {target t : Table} (given : t ∈ inputs)
    (shaped : t.Shaped) (included : target.includedIn t = true) :
    (Context.of inputs target).newValues = false := by
  refine List.any_eq_false.mpr fun cell member => ?_
  obtain ⟨held, inside, same⟩ := Table.included_cells shaped included member
  have known : cell.key ∈ inputs.flatMap Context.known := by
    refine List.mem_flatMap.mpr ⟨t, given, List.mem_append_right _ ?_⟩
    exact same ▸ List.mem_map_of_mem inside
  simpa using known

namespace Search

variable {problem : Problem} {budgets : Budgets} {readings : Nat → Nat}

/-- The inputs to which the target can be aligned, in their order, each as a
solution without operators. These are the inputs that include it. -/
def references (problem : Problem) : List Solution :=
  (List.range problem.inputs.length).filterMap fun i =>
    problem.inputs[i]?.bind fun t =>
      (Table.align .included problem.target t).map fun alignment => ⟨⟨i, []⟩, t, alignment⟩

/-- Whether an input includes the target. -/
def includes (problem : Problem) (i : Nat) : Bool :=
  problem.inputs[i]?.any problem.target.includedIn

theorem final_check_reference (problem : Problem) (i : Nat) :
    finalCheck problem ⟨i, []⟩ = problem.inputs[i]?.bind fun t =>
      (Table.align .included problem.target t).map fun alignment => ⟨⟨i, []⟩, t, alignment⟩ := by
  rw [finalCheck, Program.eval, evalSteps]
  cases problem.inputs[i]? <;> rfl

/-- Filling the sketch of an input finds the input if it includes the target. -/
theorem finds_of_reference (problem : Problem) (i : Nat) :
    (findsOf (sketchEvents problem ⟨i, []⟩)).map Prod.fst =
      if includes problem i then [⟨i, []⟩] else [] := by
  have chains : (Premises.build [] problem.target).chains = [[⟨problem.target, 0, none⟩]] := rfl
  have events : sketchEvents problem ⟨i, []⟩ =
      .chains 1 :: .check :: instantiateEvents problem.inputs problem.config [problem.target]
        ⟨i, []⟩ := by
    simp [sketchEvents, Program.operators, chains]
  rw [events, finds_of_cons, finds_of_cons, instantiateEvents, includes]
  cases problem.inputs[i]? with
  | none => rfl
  | some t =>
    have holds : Chain.holdsAt [problem.target] (Program.size ⟨i, []⟩) t =
        problem.target.includedIn t := rfl
    simp only [Option.any_some, holds]
    split <;> rfl

/-- An input that includes the target is let in as a program without operators. -/
theorem includes_nothing_of_rejected (shapedInputs : ∀ t ∈ problem.inputs, t.Shaped)
    (rejected : isAdmissible [] (.of problem.inputs problem.target) = false) (i : Nat) :
    includes problem i = false := by
  rw [includes]
  cases given : problem.inputs[i]? with
  | none => rfl
  | some t =>
    rw [Option.any_some, ← Bool.not_eq_true]
    intro included
    have member := List.mem_of_getElem? given
    have known := Context.new_values_of_included member (shapedInputs t member) included
    simp [isAdmissible, repeats, known] at rejected

/-- Without operators, a search finds the inputs that include the target. -/
theorem finds_of_references (shapedInputs : ∀ t ∈ problem.inputs, t.Shaped) :
    (findsOf (searchEvents problem 0)).map Prod.fst =
      ((List.range problem.inputs.length).filter (includes problem)).map fun i => ⟨i, []⟩ := by
  have events : findsOf (searchEvents problem 0) =
      findsOf ((admittedOf problem 0).flatMap (sketchEvents problem)) := by
    rw [searchEvents, List.range_one, List.flatMap_singleton, sizeEvents, finds_of_cons,
      finds_of_cons]
    rfl
  have operators (i : Nat) : Program.operators ⟨i, []⟩ = [] := rfl
  rw [events, admittedOf, sketchesOf, List.filter_map]
  cases admitted : isAdmissible [] (.of problem.inputs problem.target) with
  | false =>
    have none : (List.range problem.inputs.length).filter (includes problem) = [] :=
      List.filter_eq_nil_iff.mpr fun i _ => by
        simp [includes_nothing_of_rejected shapedInputs admitted i]
    simp [Function.comp_def, operators, admitted, none, findsOf]
  | true =>
    simp only [Function.comp_def, operators, admitted, List.filter_true, findsOf,
      List.filterMap_flatMap, List.flatMap_map, List.map_flatMap]
    have each (l : List Nat) : l.flatMap (fun i =>
        (findsOf (sketchEvents problem ⟨i, []⟩)).map Prod.fst) =
          (l.filter (includes problem)).map fun i => ⟨i, []⟩ := by
      induction l with
      | nil => rfl
      | cons i rest ih =>
        rw [List.flatMap_cons, finds_of_reference, ih, List.filter_cons]
        split <;> rfl
    exact each _

/-- The solutions without operators are the references. -/
theorem solutions_up_to_zero (shapedInputs : ∀ t ∈ problem.inputs, t.Shaped) :
    solutionsUpTo problem 0 = references problem := by
  have distinct : ((((List.range problem.inputs.length).filter (includes problem)).map
      fun i => (⟨i, []⟩ : Program)).map Program.canonical).Nodup := by
    rw [List.map_map]
    refine (List.nodup_range.filter _).map fun i j same => ?_
    exact congrArg Program.input same
  rw [solutionsUpTo, accepts, finds_of_references shapedInputs, firsts_by_of_distinct distinct]
  simp only [List.not_mem_nil, not_false_eq_true, decide_true, List.filter_true,
    List.filterMap_map, List.filterMap_filter, references]
  refine List.filterMap_congr fun i inside => ?_
  rw [includes, Function.comp_apply, final_check_reference]
  cases problem.inputs[i]? with
  | none => rfl
  | some t =>
    rw [Option.any_some, Option.bind_some]
    cases included : problem.target.includedIn t with
    | true => rfl
    | false => rw [Option.not_isSome_iff_eq_none.mp (Bool.eq_false_iff.mp included)]; rfl

/-- **Inputs that include the target come first.** When no check comes too late,
the solutions begin with the inputs to which the target can be aligned, in their
order and as many as the limit allows: each is a program without operators, with
the input as its output and the first alignment of the target. Every other
solution stands behind them and has operators. -/
theorem synthesize_starts_with_inputs (readings : Nat → Nat) (given : problem.inputs ≠ [])
    (shapedInputs : ∀ t ∈ problem.inputs, t.Shaped) (valid : budgets.validate = .ok ())
    (inTime : ¬ Expires readings problem budgets) :
    ∃ result others, synthesize readings problem budgets = .ok result ∧
      result.solutions = (references problem).take budgets.solutionLimit ++ others ∧
      (∀ s ∈ others, 0 < s.program.size) ∧
      result.solutions.filter (·.program.size = 0) =
        (references problem).take budgets.solutionLimit := by
  obtain ⟨later, all, larger⟩ :=
    solutions_up_to_append problem (Nat.zero_le budgets.maxSize)
  rw [solutions_up_to_zero shapedInputs] at all
  have solutions := outcome_in_time valid inTime
  rw [all, List.take_append] at solutions
  have without : ∀ s ∈ (references problem).take budgets.solutionLimit, s.program.size = 0 := by
    intro s member
    rw [← solutions_up_to_zero shapedInputs] at member
    exact Nat.le_zero.mp (solutions_up_to_small (List.mem_of_mem_take member))
  have others : ∀ s ∈ later.take (budgets.solutionLimit - (references problem).length),
      0 < s.program.size := fun s member => larger s (List.mem_of_mem_take member)
  refine ⟨_, _, synthesize_eq_ok readings given valid, solutions, others, ?_⟩
  rw [solutions, List.filter_append,
    List.filter_eq_self.mpr fun s member => decide_eq_true (without s member),
    List.filter_eq_nil_iff.mpr fun s member => by simpa using (others s member).ne',
    List.append_nil]

/-- Two accounts on which nothing was booked, and between them one with a single
booking. Two bookings of nothing are wanted. -/
def idle : Problem where
  inputs := [⟨["a"], [.number], [[.number 0], [.number 0]]⟩, ⟨["b"], [.number], [[.number 0]]⟩,
    ⟨["day", "c"], [.text, .number], [[.text "x", .number 0], [.text "y", .number 0]]⟩]
  target := ⟨["booked"], [.number], [[.number 0], [.number 0]]⟩
  config := { Config.standard with operators := [.cumsum] }

theorem synthesize_starts_with_inputs_idle :
    (references idle).map (fun s => (s.program, s.alignment)) = [(⟨0, []⟩, [0]), (⟨2, []⟩, [1])] ∧
      ∃ result others, synthesize (fun _ => 0) idle ⟨1, 1, 9⟩ = .ok result ∧
        result.solutions = (references idle).take 9 ++ others ∧ result.solutions.length = 4 ∧
        (∀ s ∈ others, 0 < s.program.size) ∧
        result.solutions.filter (·.program.size = 0) = (references idle).take 9 := by
  have shaped : ∀ t ∈ idle.inputs, t.Shaped := by
    simp only [idle, List.forall_mem_cons, List.not_mem_nil, false_implies, implies_true, and_true]
    exact ⟨⟨rfl, by simp⟩, ⟨rfl, by simp⟩, rfl, by simp⟩
  have valid : Budgets.validate ⟨1, 1, 9⟩ = .ok () := rfl
  have inTime : ¬ Expires (fun _ => 0) idle ⟨1, 1, 9⟩ :=
    not_expires_of_early (fun _ => Nat.one_pos) idle
  obtain ⟨result, others, ran, first, behind, without⟩ :=
    synthesize_starts_with_inputs (fun _ => 0) (by decide) shaped valid inTime
  have four : (synthesize (fun _ => 0) idle ⟨1, 1, 9⟩).map (·.solutions.length) = .ok 4 := by
    decide +kernel
  rw [ran, map_eq_ok] at four
  obtain ⟨_, ⟨⟩, count⟩ := four
  exact ⟨by decide +kernel, result, others, ran, first, count, behind, without⟩

end Search
end Reshape
