import Mathlib.Data.List.Perm.Subperm
import Reshape.Proofs.Admissibility
import Reshape.Proofs.SketchOrder
import Reshape.Proofs.Truncation

/-! How long an admissible sequence of operators can be. Besides `separate`, which
may repeat, there is room for one operator that gathers, for one that appends,
and for `unite`, `spread` and `group_sum` once each. Without a separator in the
inputs nothing separates, so no sketch of six operators is worth searching and
a search gains nothing from looking at programs of more than five. -/
namespace Reshape

variable {operators : List Operator} {context : Context}

/-- The operators of the search that are in no family and may not repeat. -/
def loners : List Operator := [.unite, .spread, .groupSum]

/-- Each operator of the search but `separate` gathers, appends or is in no
family. -/
theorem others_le (outside : ∀ op ∈ operators, op ≠ .select ∧ op ≠ .filter) :
    (operators.filter (· ≠ .separate)).length ≤ (operators.filter Operator.gathers).length +
      (operators.filter Operator.appends).length + (operators.filter (· ∈ loners)).length := by
  induction operators with
  | nil => exact Nat.zero_le _
  | cons op rest ih =>
    obtain ⟨⟨noSelect, noFilter⟩, beneath⟩ := List.forall_mem_cons.mp outside
    have fewer := ih beneath
    simp only [← List.countP_eq_length_filter, List.countP_cons] at fewer ⊢
    have counted : (if decide (op ≠ .separate) then 1 else 0) ≤
        (if op.gathers then 1 else 0) + (if op.appends then 1 else 0) +
          (if decide (op ∈ loners) then 1 else 0) := by
      cases op with
      | select => contradiction
      | filter => contradiction
      | _ => decide
    omega

/-- At most five operators of an admissible sequence are not `separate`. -/
theorem Admissible.others_le_five (rules : Admissible operators context) :
    (operators.filter (· ≠ .separate)).length ≤ 5 := by
  have part : (operators.filter (· ∈ loners)).Sublist
      (operators.filter fun op => !decide (op = .separate)) := by
    refine List.monotone_filter_right operators fun op alone => ?_
    cases op <;> simp [loners] at alone ⊢
  have different := (repeats_eq_false_iff.mp rules.once).sublist part
  have three : (operators.filter (· ∈ loners)).length ≤ loners.length := by
    refine (different.subperm fun op held => ?_).length_le
    exact of_decide_eq_true (List.mem_filter.mp held).2
  calc (operators.filter (· ≠ .separate)).length
      ≤ (operators.filter Operator.gathers).length + (operators.filter Operator.appends).length +
          (operators.filter (· ∈ loners)).length := others_le rules.outside
    _ ≤ 1 + 1 + loners.length :=
      Nat.add_le_add (Nat.add_le_add rules.gathering rules.appending) three

theorem Admissible.length_le_five (rules : Admissible operators context)
    (lacking : context.hasSeparator = false) : operators.length ≤ 5 := by
  have others : operators.filter (· ≠ .separate) = operators := by
    refine List.filter_eq_self.mpr fun op held => decide_eq_true ?_
    rintro rfl
    exact Bool.false_ne_true (lacking.symm.trans (rules.separable held))
  exact others ▸ rules.others_le_five

/-- Without a separator, no sketch of more than five operators is admissible. -/
theorem due_eq_nil (lacking : context.hasSeparator = false) {size : Nat} (large : 6 ≤ size)
    (operators : List Operator) (inputs : Nat) :
    Levels.Request.due operators inputs (.admissible size context) = [] := by
  rw [Levels.Request.due, List.map_eq_nil_iff, List.filter_eq_nil_iff]
  intro a held admitted
  have short := (is_admissible_iff.mp admitted).length_le_five lacking
  rw [Address.chain, List.length_map, mem_addresses.mp held] at short
  omega

namespace Search

variable {problem : Problem} {readings : Nat → Nat}

theorem admitted_of_eq_nil
    (lacking : (Context.of problem.inputs problem.target).hasSeparator = false) {size : Nat}
    (large : 6 ≤ size) : admittedOf problem size = [] :=
  (admissible_sketches_eq _ _ _ _).trans (due_eq_nil lacking large _ _)

/-- Larger programs than those of five operators add no solution. -/
theorem solutions_up_to_five
    (lacking : (Context.of problem.inputs problem.target).hasSeparator = false) {size : Nat}
    (large : 5 ≤ size) : solutionsUpTo problem size = solutionsUpTo problem 5 := by
  obtain ⟨later, all, beyond⟩ := solutions_up_to_append problem large
  suffices later = [] by rw [all, this, List.append_nil]
  refine List.eq_nil_iff_forall_not_mem.mpr fun s held => ?_
  obtain ⟨value, found⟩ := found_of_accepts (all ▸ List.mem_append_right _ held)
  obtain ⟨reached, -, found⟩ := List.mem_flatMap.mp found
  obtain ⟨sketch, admitted, -⟩ := found_of_size found
  have six : 6 ≤ reached := found_size found ▸ beyond s held
  rw [admitted_of_eq_nil lacking six] at admitted
  cases admitted

/-- A run in time accepts solutions of at most five operators, whatever the size
it may go to. -/
theorem synthesize_up_to_five
    (lacking : (Context.of problem.inputs problem.target).hasSeparator = false)
    {budgets : Budgets} (large : 5 ≤ budgets.maxSize) (inTime : ¬ Expires readings problem budgets) :
    (synthesize readings problem budgets).map (·.solutions) =
      (validate problem budgets).map fun _ =>
        (solutionsUpTo problem 5).take budgets.solutionLimit := by
  rw [synthesize_eq]
  cases checked : validate problem budgets with
  | error _ => rfl
  | ok _ =>
    have valid := (validate_eq_ok.mp checked).2
    show Except.ok (outcome readings problem budgets).solutions = _
    rw [outcome_in_time valid inTime, solutions_up_to_five lacking large]
    rfl

end Search

open Search

/-- **At most five operators besides `separate`.** That many are in any sequence
worth searching, however long it is. So without a separator a store of sketches
answers with none of six operators or more, whatever it has been asked before,
and all runs of a problem that may go to five operators or more and that no
check ends early have the same solutions: neither the size nor the clock makes
a difference to them. -/
theorem admissible_at_most_five :
    (∀ operators context, isAdmissible operators context = true →
        (operators.filter (· ≠ .separate)).length ≤ 5) ∧
      (∀ operators inputs context, context.hasSeparator = false → ∀ requests size, 6 ≤ size →
        (Levels.start operators inputs).answers (requests ++ [.admissible size context]) =
          (Levels.start operators inputs).answers requests ++ [[]]) ∧
      ∀ problem budgets, (Context.of problem.inputs problem.target).hasSeparator = false →
        ∀ readings size, 5 ≤ size → ¬ Expires readings problem { budgets with maxSize := size } →
          (synthesize readings problem { budgets with maxSize := size }).map (·.solutions) =
            (validate problem budgets).map fun _ =>
              (solutionsUpTo problem 5).take budgets.solutionLimit := by
  refine ⟨?_, ?_, ?_⟩
  · exact fun operators context admitted => (is_admissible_iff.mp admitted).others_le_five
  · intro operators inputs context lacking requests size large
    have new := Levels.start_built operators inputs
    rw [Levels.answers_eq new, Levels.answers_eq new, List.map_append, List.map_singleton,
      due_eq_nil lacking large]
  · intro problem budgets lacking readings size large inTime
    exact synthesize_up_to_five lacking large inTime

/-- As many operators as there is room for, among which `separate` repeats. -/
def crowded : List Operator :=
  [.groupSum, .separate, .mutate, .separate, .gather, .spread, .unite]

example : (crowded.filter (· ≠ .separate)).length = 5 := rfl

/-- Two columns of zeros have no separator, so looking at programs of seven
operators finds no more than looking at those of five. -/
theorem admissible_at_most_five_zeros :
    isAdmissible crowded ⟨true, true⟩ = true ∧ (crowded.filter (· ≠ .separate)).length ≤ 5 ∧
      (Levels.start [.cumsum] 2).answers [.level 7, .admissible 6 ⟨true, false⟩] =
        (Levels.start [.cumsum] 2).answers [.level 7] ++ [[]] ∧
      (Context.of zeros.inputs zeros.target).hasSeparator = false ∧
      (synthesize (fun _ => 0) zeros ⟨5, 1, 2⟩).map (·.solutions) =
        (synthesize (fun _ => 0) zeros ⟨7, 1, 2⟩).map (·.solutions) := by
  obtain ⟨shape, levels, runs⟩ := admissible_at_most_five
  have admitted : isAdmissible crowded ⟨true, true⟩ = true := by decide
  have lacking : (Context.of zeros.inputs zeros.target).hasSeparator = false := by decide +kernel
  have solved (size : Nat) (large : 5 ≤ size) := runs zeros ⟨5, 1, 2⟩ lacking (fun _ => 0) size
    large (not_expires_of_early (fun _ => Nat.one_pos) zeros)
  exact ⟨admitted, shape _ _ admitted, levels _ _ _ rfl [.level 7] 6 le_rfl, lacking,
    (solved 5 le_rfl).trans (solved 7 (by omega)).symm⟩

end Reshape
