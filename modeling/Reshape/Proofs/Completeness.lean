import Reshape.Proofs.Extension
import Reshape.Proofs.SolutionSet
import Reshape.Proofs.Truncation
import Reshape.Proofs.WellFormedness

/-! Programs that the search does not miss. Around operators that compute a
column the rules hand every requirement down to one that is included below, so
a program of such operators has its premises by what it evaluates to alone. It
remains to draw its arguments from their domains, and the search finds it. -/
namespace Reshape

variable {inputs : List Table} {input : Nat}

/-- Around operators that compute a column there are premises at every depth, as
soon as the target is included in the value under a match that uses the column
of the outermost one. -/
theorem premises_of_computing (outermost : Bool) {steps : List Step} {target out : Table}
    {mapping : List Nat} (shapedInputs : ∀ t ∈ inputs, t.Shaped) (shapedTarget : target.Shaped)
    (computing : ∀ step ∈ steps, ∃ kind, step.operator.computes = some kind)
    (value : evalSteps inputs input steps = .ok out) (rows : target.rows ≠ [])
    (found : Table.Matches .included target out mapping)
    (visible : outermost = false ∨ out.width - 1 ∈ mapping) :
    ∃ premise : Nat → Table, premise 0 = target ∧
      (∀ (d : Nat) (step : Step), steps[d]? = some step →
        premise (d + 1) ∈ step.operator.backward (premise d) (outermost && decide (d = 0))) ∧
      ∀ d ≤ steps.length, ∃ t, evalSteps inputs input (steps.drop d) = .ok t ∧
        (premise d).includedIn t = true := by
  induction steps generalizing outermost target out mapping with
  | nil =>
    refine ⟨fun _ => target, rfl, by simp, fun d inside => ?_⟩
    obtain rfl : d = 0 := Nat.le_zero.mp inside
    exact ⟨out, value, Table.included_in_iff.mpr ⟨mapping, found⟩⟩
  | cons step rest ih =>
    obtain ⟨below, beneath, ran⟩ := bind_eq_ok.mp value
    obtain ⟨kind, computes⟩ := computing step List.mem_cons_self
    have shapedBelow := eval_steps_shaped shapedInputs beneath
    obtain ⟨r, handed, included⟩ := Step.computed_covers shapedBelow shapedTarget computes ran rows
      found visible
    obtain ⟨mapping', found'⟩ := Table.included_in_iff.mp included
    have shaped := Operator.backward_shaped shapedTarget handed
    have rows' := Operator.backward_rows rows handed
    obtain ⟨premise, first, each, meets⟩ := ih false shaped
      (fun step member => computing step (List.mem_cons_of_mem _ member)) beneath rows' found'
      (.inl rfl)
    refine ⟨fun d => d.casesOn target premise, rfl, fun d step' held => ?_, fun d inside => ?_⟩
    · cases d with
      | zero =>
        cases held
        simpa [first] using handed
      | succ d => simpa using each d step' held
    · cases d with
      | zero => exact ⟨out, value, Table.included_in_iff.mpr ⟨mapping, found⟩⟩
      | succ d => exact meets d (Nat.le_of_succ_le_succ inside)

namespace Search

variable {problem : Problem} {budgets : Budgets}

/-- All wanted programs up to a size are among the solutions up to it, each by
the first one found that is equal to it in value. -/
theorem solutions_up_to_cover (shapedInputs : ∀ t ∈ problem.inputs, t.Shaped)
    (shapedTarget : problem.target.Shaped) {maxSize : Nat} {p : Program}
    (wanted : Wanted problem maxSize p) :
    ∃ s ∈ solutionsUpTo problem maxSize, s.program.canonical = p.canonical := by
  obtain ⟨value, made, -⟩ := wanted.evaluates
  have found := (found_iff_wanted shapedInputs shapedTarget).mpr ⟨wanted, made⟩
  have listed : p ∈ (findsOf (searchEvents problem maxSize)).map Prod.fst :=
    List.mem_map.mpr ⟨(p, value), mem_finds_of.mpr found, rfl⟩
  obtain ⟨q, first, same⟩ := firsts_by_represent Program.canonical listed
  obtain ⟨⟨_, _⟩, member, rfl⟩ := List.mem_map.mp (mem_firsts_by first)
  have wantedFirst := ((found_iff_wanted shapedInputs shapedTarget).mp (mem_finds_of.mp member)).1
  obtain ⟨s, checked⟩ := final_check_of_wanted wantedFirst
  refine ⟨s, List.mem_filterMap.mpr ⟨_, ?_, checked⟩, ?_⟩
  · exact List.mem_filter.mpr ⟨first, by simp⟩
  · rw [(final_check_eq_some.mp checked).1]
    exact same

/-- **Programs that compute are not missed.** Take a program of `mutate`,
`cumsum`, `mutate_custom` and `group_sum` in an admissible order, each of its
arguments drawn from its domain above the value beneath. If its value includes
the target under some match that uses the column of its outermost operator, a
run that looks at programs of its size and that nothing ends early returns it,
up to the value of its constants. -/
theorem synthesize_finds_computing (readings : Nat → Nat) (given : problem.inputs ≠ [])
    (shapedInputs : ∀ t ∈ problem.inputs, t.Shaped) (shapedTarget : problem.target.Shaped)
    (rows : problem.target.rows ≠ []) (valid : budgets.validate = .ok ())
    (inTime : ¬ Expires readings problem budgets) {p : Program} {out : Table} {mapping : List Nat}
    (computing : ∀ op ∈ p.operators, op ∈ [.mutate, .cumsum, .mutateCustom, .groupSum])
    (configured : ∀ op ∈ p.operators, op ∈ problem.config.operators)
    (admissible : isAdmissible p.operators (.of problem.inputs problem.target) = true)
    (drawn : ∀ (d : Nat) (step : Step), p.steps[d]? = some step → ∃ below choice,
      evalSteps problem.inputs p.input (p.steps.drop (d + 1)) = .ok below ∧
        step.Chosen problem.config below choice)
    (small : p.size ≤ budgets.maxSize) (value : p.eval problem.inputs = .ok out)
    (found : Table.Matches .included problem.target out mapping)
    (used : out.width - 1 ∈ mapping) :
    ∃ result, synthesize readings problem budgets = .ok result ∧
      (result.solutions.length < budgets.solutionLimit →
        ∃ s ∈ result.solutions, s.program.canonical = p.canonical) := by
  refine ⟨_, synthesize_eq_ok readings given valid, fun unfilled => ?_⟩
  have computes : ∀ step ∈ p.steps, ∃ kind, step.operator.computes = some kind := by
    intro step member
    have op := computing step.operator (List.mem_map_of_mem member)
    simp only [List.mem_cons, List.not_mem_nil, or_false] at op
    rcases op with op | op | op | op <;> exact ⟨_, by rw [op]; rfl⟩
  obtain ⟨premise, first, each, meets⟩ := premises_of_computing true shapedInputs shapedTarget
    computes value rows found (.inr used)
  have wanted : Wanted problem budgets.maxSize p := by
    obtain ⟨table, reads, -⟩ := meets p.size le_rfl
    rw [Program.size, List.drop_length, eval_input_eq_ok] at reads
    refine ⟨(List.getElem?_eq_some_iff.mp reads).1, small, configured, admissible, drawn, premise,
      first, fun d op operator => ?_, meets⟩
    rw [Program.operators, List.getElem?_map, Option.map_eq_some_iff] at operator
    obtain ⟨step, held, rfl⟩ := operator
    simpa using each d step held
  rw [outcome_complete valid inTime unfilled]
  exact solutions_up_to_cover shapedInputs shapedTarget wanted

/-- Deposits by name, and for one name the sum of what is there after each of
them. -/
def saving : Problem where
  inputs := [⟨["name", "amount"], [.text, .number],
    [[.text "a", .number 1], [.text "a", .number 2]]⟩]
  target := ⟨["sum", "name"], [.number, .text], [[.number 4, .text "a"]]⟩
  config := { Config.standard with operators := [.cumsum, .groupSum], aggregates := [.sum] }

/-- Sums up the running totals by name. -/
def balances : Program where
  input := 0
  steps := [⟨.groupSum, [.columns [0], .column 2, .aggregate .sum]⟩, ⟨.cumsum, [.column 1]⟩]

theorem balances_drawn (d : Nat) (step : Step) (held : balances.steps[d]? = some step) :
    ∃ below choice,
      evalSteps saving.inputs balances.input (balances.steps.drop (d + 1)) = .ok below ∧
        step.Chosen saving.config below choice := by
  match d with
  | 0 =>
    cases held
    exact ⟨_, [0, 1, 0], rfl, rfl, .next rfl rfl (.next rfl rfl (.next rfl rfl .done))⟩
  | 1 =>
    cases held
    exact ⟨_, [0], rfl, rfl, .next rfl rfl .done⟩
  | d + 2 => cases held

theorem synthesize_finds_computing_balances :
    ∃ result, synthesize (fun _ => 0) saving ⟨2, 1, 9⟩ = .ok result ∧
      result.solutions.length = 1 ∧
      ∃ s ∈ result.solutions, s.program.canonical = balances.canonical := by
  have shapedInputs : ∀ t ∈ saving.inputs, t.Shaped := by
    intro t member
    cases List.mem_singleton.mp member
    exact ⟨rfl, by simp⟩
  have shapedTarget : saving.target.Shaped := ⟨rfl, by simp [saving]⟩
  have valid : Budgets.validate ⟨2, 1, 9⟩ = .ok () := rfl
  have inTime : ¬ Expires (fun _ => 0) saving ⟨2, 1, 9⟩ :=
    not_expires_of_early (fun _ => Nat.one_pos) saving
  have value : (balances.eval saving.inputs).map (fun out =>
      (out.width - 1, Table.align .included saving.target out)) = .ok (1, some [1, 0]) := by
    decide +kernel
  obtain ⟨out, evaluated, fits⟩ := map_eq_ok.mp value
  obtain ⟨last, aligned⟩ := Prod.mk.inj fits
  obtain ⟨result, ran, finds⟩ := synthesize_finds_computing (fun _ => 0) (by decide) shapedInputs
    shapedTarget (by decide) valid inTime (by decide) (by decide) (by decide +kernel) balances_drawn
    (by decide) evaluated (Table.align_some aligned).1 (by rw [last]; decide)
  have single : (synthesize (fun _ => 0) saving ⟨2, 1, 9⟩).map (·.solutions.length) = .ok 1 := by
    decide +kernel
  rw [ran, map_eq_ok] at single
  obtain ⟨_, ⟨⟩, one⟩ := single
  exact ⟨result, ran, one, finds (by rw [one]; decide)⟩

end Search
end Reshape
