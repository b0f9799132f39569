import Mathlib.Data.List.Basic
import Reshape.Proofs.Domains

/-! Choices and what they build. A way to fill a sketch is a sequence of
numbers, each of them a place in the domain of one argument; the innermost step
comes first, and within a step the first argument. Nothing here runs a search:
these relations say what a naive enumeration would try. -/
namespace Reshape

/-- Behind some arguments, the first of the holes is next. -/
theorem Step.first_hole {op : Operator} (given : List Argument) (left : Nat) :
    Step.argument? ⟨op, given ++ List.replicate (left + 1) .hole⟩ (given.length + 1) =
      some .hole := by
  simp [argument?]

/-- Filling it leaves the others. -/
theorem Step.fill_first_hole {op : Operator} (given : List Argument) (left : Nat)
    (value : Argument) :
    Step.withArgument ⟨op, given ++ List.replicate (left + 1) .hole⟩ (given.length + 1) value =
      ⟨op, (given ++ [value]) ++ List.replicate left .hole⟩ := by
  simp [withArgument, List.replicate_succ]

/-- Arguments behind some given ones, each taken from its domain while all later
ones are open. The numbers are the places they take there. -/
inductive Drawn (config : Config) (below : Table) (op : Operator) :
    (given rest : List Argument) → (choice : List Nat) → Prop where
  | done {given : List Argument} : Drawn config below op given [] []
  | next {given rest : List Argument} {value : Argument} {choice : List Nat}
      {values : List Argument} {place : Nat}
      (offered : Step.domain ⟨op, given ++ List.replicate (rest.length + 1) .hole⟩
        (given.length + 1) below config = .ok values)
      (taken : values[place]? = some value)
      (later : Drawn config below op (given ++ [value]) rest choice) :
      Drawn config below op given (value :: rest) (place :: choice)

/-- A step with as many arguments as its operator has, drawn one after the
other above this table. -/
structure Step.Chosen (config : Config) (below : Table) (step : Step) (choice : List Nat) :
    Prop where
  total : step.arguments.length = step.operator.arity
  drawn : Drawn config below step.operator [] step.arguments choice

/-- Steps put around others by a choice, each chosen above the value of all that
is beneath it. -/
inductive Filled (inputs : List Table) (config : Config) (input : Nat) (done : List Step) :
    (outer : List Step) → (choice : List Nat) → Prop where
  | nothing : Filled inputs config input done [] []
  | around {outer : List Step} {step : Step} {choice own : List Nat} {below : Table}
      (within : Filled inputs config input done outer choice)
      (beneath : evalSteps inputs input (outer ++ done) = .ok below)
      (chosen : step.Chosen config below own) :
      Filled inputs config input done (step :: outer) (choice ++ own)

variable {inputs : List Table} {config : Config} {input : Nat}

/-- The innermost of some steps is chosen first. -/
theorem filled_snoc_iff {done outer : List Step} {step : Step} {choice : List Nat} :
    Filled inputs config input done (outer ++ [step]) choice ↔
      ∃ below own later, choice = own ++ later ∧
        evalSteps inputs input done = .ok below ∧ step.Chosen config below own ∧
          Filled inputs config input (step :: done) outer later := by
  induction outer generalizing choice with
  | nil =>
    constructor
    · rintro (_ | ⟨within, beneath, chosen⟩)
      cases within
      exact ⟨_, _, [], by simp, beneath, chosen, .nothing⟩
    · rintro ⟨below, own, later, rfl, beneath, chosen, within⟩
      cases within
      simpa using Filled.around .nothing beneath chosen
  | cons last outer ih =>
    constructor
    · rintro (_ | ⟨within, beneath, chosen⟩)
      obtain ⟨below, own, later, rfl, first, drawn, rest⟩ := ih.mp within
      refine ⟨below, own, _, List.append_assoc own later _, first, drawn, ?_⟩
      exact .around rest (by simpa using beneath) chosen
    · rintro ⟨below, own, later, rfl, first, drawn, rest⟩
      cases rest with
      | around within beneath chosen =>
        rw [← List.append_assoc]
        exact .around (ih.mpr ⟨below, own, _, rfl, first, drawn, within⟩) (by simpa using beneath)
          chosen

/-- A domain has no hole, so what is drawn leaves none. -/
theorem Step.hole_not_mem_domain {step : Step} {position : Nat} {t : Table}
    {values : List Argument} (offered : step.domain position t config = .ok values) :
    Argument.hole ∉ values := by
  cases offered_of_ok offered <;> simp [Config.comparisonsOf, Config.constantsOf]

theorem Drawn.no_hole {below : Table} {op : Operator} {given rest : List Argument}
    {choice : List Nat} (drawn : Drawn config below op given rest choice) :
    Argument.hole ∉ rest := by
  induction drawn with
  | done => exact List.not_mem_nil
  | next offered taken _ ih =>
    intro member
    rcases List.mem_cons.mp member with rfl | member
    · exact Step.hole_not_mem_domain offered (List.mem_of_getElem? taken)
    · exact ih member

theorem Filled.concrete {done outer : List Step} {choice : List Nat}
    (filled : Filled inputs config input done outer choice) :
    ∀ step ∈ outer, step.isConcrete = true := by
  induction filled with
  | nothing => simp
  | around _ _ chosen ih =>
    refine List.forall_mem_cons.mpr ⟨?_, ih⟩
    have closed := chosen.drawn.no_hole
    simp only [Step.isConcrete, List.all_eq_true, decide_eq_true_eq]
    exact fun argument member same => closed (same ▸ member)

end Reshape
