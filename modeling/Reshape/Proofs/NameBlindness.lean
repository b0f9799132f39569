import Reshape.Proofs.Renaming
import Reshape.Proofs.StandingClock

/-! Names of target columns never influence a search. Inclusion compares cells,
and requirements are pushed back alike under all names, so the search sends the
same events and the final check gives the same answers. -/
namespace Reshape

namespace Table.Renamed

variable {t t' : Table} (renamed : t.Renamed t')
include renamed

theorem align_eq (mode : Matching) (actual : Table) :
    align mode t' actual = align mode t actual := by
  have sizes : mode.sizesFit t' actual = mode.sizesFit t actual := by
    cases mode <;> simp only [Matching.sizesFit, renamed.width, renamed.height]
  simp only [Table.align, sizes, alignOptions, renamed.same_kinds.positions, renamed.keys]

theorem included_in_eq (actual : Table) : t'.includedIn actual = t.includedIn actual := by
  rw [Table.includedIn, renamed.align_eq, Table.includedIn]

theorem fits_kinds_eq (kinds : List Kind) : t'.fitsKinds kinds = t.fitsKinds kinds := by
  simp only [Table.fitsKinds, renamed.height, renamed.kinds]

end Table.Renamed

/-- Chains whose premises ask for the same at each depth. -/
structure Chain.Alike (chain chain' : Chain) : Prop where
  holds : chain'.holdsAt = chain.holdsAt
  fits : chain'.fitsAt = chain.fitsAt

theorem Chain.alike_of_renamed {chain chain' : Chain}
    (renamed : List.Forall₂ Table.Renamed chain chain') : chain.Alike chain' := by
  have each (depth : Nat) : Option.Rel Table.Renamed chain[depth]? chain'[depth]? := by
    induction renamed generalizing depth with
    | nil => exact .none
    | cons head _ ih =>
      cases depth with
      | zero => exact .some head
      | succ depth => exact ih depth
  constructor
  · funext depth t
    have here := each depth
    unfold holdsAt
    generalize chain[depth]? = premise, chain'[depth]? = premise' at here ⊢
    cases here with
    | some renamed => exact renamed.included_in_eq t
    | none => rfl
  · funext depth kinds
    have here := each depth
    unfold fitsAt
    generalize chain[depth]? = premise, chain'[depth]? = premise' at here ⊢
    cases here with
    | some renamed => exact renamed.fits_kinds_eq kinds
    | none => rfl

namespace Search

section Events

variable {config : Config} {chain chain' : Chain}

theorem ascend_alike (alike : chain.Alike chain') (input : Nat) (inward done : List Step)
    (value : Table) : ascendEvents config chain' input inward done value =
      ascendEvents config chain input inward done value := by
  induction inward generalizing done value with
  | nil => rfl
  | cons step above ih =>
    have ruled : ruledOut chain' above.length = ruledOut chain above.length := by
      funext step below
      rw [ruledOut, ruledOut, alike.fits]
    simp only [ascendEvents, ruled, alike.holds, ih]

theorem instantiate_alike (alike : chain.Alike chain') (inputs : List Table) (sketch : Program) :
    instantiateEvents inputs config chain' sketch =
      instantiateEvents inputs config chain sketch := by
  simp only [instantiateEvents, alike.holds, ascend_alike alike]

/-- The events of a sketch by the derivations of the target. -/
theorem sketch_events_eq (problem : Problem) (sketch : Program) :
    sketchEvents problem sketch =
      .chains (derivations 0 sketch.operators problem.target).length ::
        (derivations 0 sketch.operators problem.target).flatMap fun chain =>
          .check :: instantiateEvents problem.inputs problem.config chain sketch := by
  rw [sketchEvents, ← Premises.chains_targets, List.length_map, List.flatMap_map]

end Events

variable {problem problem' : Problem}

/-- The same problem up to the names of target columns. -/
structure SameButNames (problem problem' : Problem) : Prop where
  inputs : problem'.inputs = problem.inputs
  config : problem'.config = problem.config
  target : problem.target.Renamed problem'.target

namespace SameButNames

variable (same : SameButNames problem problem')
include same

theorem context_eq (inputs : List Table) :
    Context.of inputs problem'.target = Context.of inputs problem.target := by
  simp only [Context.of, Table.cells, same.target.rows]

theorem sketches_eq (sketch : Program) :
    sketchEvents problem' sketch = sketchEvents problem sketch := by
  have derived := derivations_renamed same.target sketch.operators 0
  have each : (derivations 0 sketch.operators problem.target).map (fun chain =>
        Event.check :: instantiateEvents problem.inputs problem.config chain sketch) =
      (derivations 0 sketch.operators problem'.target).map fun chain =>
        Event.check :: instantiateEvents problem.inputs problem.config chain sketch :=
    map_eq_of_forall₂ (derived.imp fun chain chain' renamed =>
      congrArg _ (instantiate_alike (Chain.alike_of_renamed renamed) _ _).symm)
  rw [sketch_events_eq, sketch_events_eq, same.inputs, same.config, ← derived.length_eq,
    List.flatMap_def, ← each, ← List.flatMap_def]

/-- **The search sends the same events** whatever the target columns are
called. -/
theorem search_eq (maxSize : Nat) :
    searchEvents problem' maxSize = searchEvents problem maxSize := by
  have sketches : sketchEvents problem' = sketchEvents problem :=
    funext same.sketches_eq
  have sizes : sizeEvents problem' = sizeEvents problem := by
    funext size
    simp only [sizeEvents, admittedOf, same.inputs, same.config, same.context_eq, sketches]
  rw [searchEvents, sizes, searchEvents]

theorem final_check_eq (program : Program) :
    finalCheck problem' program = finalCheck problem program := by
  simp only [finalCheck, same.inputs, same.target.align_eq]

theorem follow_eq (budgets : Budgets) (readings : Nat → Nat) (number : Nat) (events : List Event)
    (p : Progress) : follow problem' budgets readings number events p =
      follow problem budgets readings number events p := by
  induction events generalizing number p with
  | nil => rfl
  | cons event rest ih =>
    have take : Progress.take problem' = Progress.take problem := by
      funext p program
      rw [Progress.take, Progress.take, same.final_check_eq]
    have next : p.next problem' budgets (readings number) event =
        p.next problem budgets (readings number) event := by
      cases event <;> simp only [Progress.next, take]
    rw [follow, follow, next, ih]

theorem outcome_eq (readings : Nat → Nat) (budgets : Budgets) :
    outcome readings problem' budgets = outcome readings problem budgets := by
  simp only [outcome, same.search_eq, same.follow_eq]

end SameButNames

/-- **Names of target columns never influence the search.** Under any readings
of the clock the same search is run on two targets that differ in their names
only. If no check comes too late, not even the clocks have to agree: the
solutions are the same, and so is the report but for its times. -/
theorem synthesize_ignores_names {problem : Problem} {target : Table} {budgets : Budgets}
    (given : problem.inputs ≠ []) (valid : budgets.validate = .ok ())
    (ok : problem.target.WellFormed) (ok' : target.WellFormed)
    (kinds : target.kinds = problem.target.kinds) (rows : target.rows = problem.target.rows) :
    (∀ readings, synthesize readings { problem with target } budgets =
      synthesize readings problem budgets) ∧
    ∀ readings readings', ¬ Expires readings problem budgets →
      ¬ Expires readings' { problem with target } budgets →
        ∃ result result', synthesize readings problem budgets = .ok result ∧
          synthesize readings' { problem with target } budgets = .ok result' ∧
          result'.solutions = result.solutions ∧
          result'.report.untimed = result.report.untimed := by
  have same : SameButNames problem { problem with target } := ⟨rfl, rfl, ok, ok', kinds, rows⟩
  constructor
  · intro readings
    rw [synthesize_eq, synthesize_eq, same.outcome_eq]
    rfl
  · intro readings readings' inTime inTime'
    refine ⟨_, _, synthesize_eq_ok readings given valid, synthesize_eq_ok readings' given valid, ?_⟩
    have untimed : (outcome readings problem budgets).untimed =
        (outcome readings' { problem with target } budgets).untimed := by
      rw [outcome_untimed valid inTime, outcome_untimed valid inTime', same.outcome_eq]
    exact ⟨(congrArg Synthesis.solutions untimed).symm, (congrArg Synthesis.report untimed).symm⟩

/-- A target whose cells stand below each other in the input, under two
namings. With the second one the name of the column that holds them is taken
when it is to be made. -/
def heaped (first second : String) : Problem where
  inputs := [⟨["k", "y", "v"], [.text, .text, .number],
    [[.text "a", .text "p", .number 1], [.text "a", .text "q", .number 2],
      [.text "b", .text "p", .number 3], [.text "b", .text "q", .number 4]]⟩]
  target := ⟨["k", first, second], [.text, .number, .number],
    [[.text "a", .number 1, .number 2], [.text "b", .number 3, .number 4]]⟩
  config := { Config.standard with operators := [.spread] }

/-- Spreading is found under both namings, and under clocks of different readings. -/
theorem synthesize_ignores_names_heaped :
    ∃ result result', synthesize (fun _ => 0) (heaped "p" "q") ⟨1, 2, 9⟩ = .ok result ∧
      synthesize (fun number => number % 2) (heaped "VALUE" "VALUE0") ⟨1, 2, 9⟩ = .ok result' ∧
      result.solutions.map (·.program) = [⟨0, [⟨.spread, [.column 1, .column 2]⟩]⟩] ∧
      result'.solutions = result.solutions ∧
      result'.report.untimed = result.report.untimed := by
  have given : (heaped "p" "q").inputs ≠ [] := by decide
  have valid : Budgets.validate ⟨1, 2, 9⟩ = .ok () := rfl
  have ok : (heaped "p" "q").target.WellFormed := ⟨by decide, rfl, by decide⟩
  have ok' : (heaped "VALUE" "VALUE0").target.WellFormed := ⟨by decide, rfl, by decide⟩
  have early (number : Nat) : number % 2 < 2 := Nat.mod_lt _ Nat.two_pos
  obtain ⟨result, result', ran, ran', solutions, report⟩ :=
    (synthesize_ignores_names given valid ok ok' rfl rfl).2 (fun _ => 0) (fun number => number % 2)
      (not_expires_of_early (fun _ => Nat.two_pos) _) (not_expires_of_early early _)
  have found : (synthesize (fun _ => 0) (heaped "p" "q") ⟨1, 2, 9⟩).map
      (·.solutions.map (·.program)) = .ok [⟨0, [⟨.spread, [.column 1, .column 2]⟩]⟩] := by
    decide +kernel
  rw [ran, map_eq_ok] at found
  obtain ⟨_, ⟨⟩, programs⟩ := found
  exact ⟨result, result', ran, ran', programs, solutions, report⟩

end Search
end Reshape
