import Reshape.Proofs.SketchLevels
import Reshape.Search.Synthesis

/-! A search is a list of events. Nothing that a listener does comes back into
the search but its end, so the events of a problem are fixed before anyone
listens, and every run takes in a first part of them. What a run finds, counts
or misses is thereby a matter of one list and of the listener alone. -/
namespace Reshape

/-- A program that was found, with the value it was found with. -/
abbrev Find := Program × Table

/-- The programs found among events, in their order. -/
def findsOf (events : List Event) : List Find :=
  events.filterMap fun event =>
    match event with
    | .found program value => some (program, value)
    | _ => none

@[simp] theorem finds_of_append (events others : List Event) :
    findsOf (events ++ others) = findsOf events ++ findsOf others :=
  List.filterMap_append

theorem finds_of_cons (event : Event) (rest : List Event) :
    findsOf (event :: rest) = findsOf [event] ++ findsOf rest :=
  finds_of_append [event] rest

namespace Search

/-- The events of filling a step's holes from a position on. -/
def fillEvents (config : Config) (below : Table) (next : Step → List Event) :
    (left position : Nat) → Step → List Event
  | 0, _, step => .check :: next step
  | left + 1, position, step =>
    .check :: if step.argument? position = some .hole then
      match step.domain position below config with
      | .error _ => []
      | .ok values => values.flatMap fun value =>
        fillEvents config below next left (position + 1) (step.withArgument position value)
    else fillEvents config below next left (position + 1) step

/-- The events of filling the steps that are left. -/
def ascendEvents (config : Config) (chain : Chain) (input : Nat) :
    (inward : List Step) → (done : List Step) → (value : Table) → List Event
  | [], done, value => [.found ⟨input, done⟩ value]
  | step :: above, done, below =>
    fillEvents config below
      (fun step =>
        if ruledOut chain above.length step below then [.pruned]
        else .tried :: match step.apply below with
          | .error _ => [.refused step.operator]
          | .ok value =>
            if chain.holdsAt above.length value then
              ascendEvents config chain input above (step :: done) value
            else [.pruned])
      step.operator.arity 1 step

/-- The events of filling a sketch along a chain of premises. -/
def instantiateEvents (inputs : List Table) (config : Config) (chain : Chain) (sketch : Program) :
    List Event :=
  match inputs[sketch.input]? with
  | none => []
  | some table =>
    if chain.holdsAt sketch.size table then
      ascendEvents config chain sketch.input sketch.steps.reverse [] table
    else [.pruned]

/-- The events of searching one sketch. -/
def sketchEvents (problem : Problem) (sketch : Program) : List Event :=
  let chains := (Premises.build sketch.operators problem.target).chains
  .chains chains.length :: chains.flatMap fun chain =>
    .check :: instantiateEvents problem.inputs problem.config (chain.map Obligation.target) sketch

/-- The sketches of a size that are worth searching. -/
def admittedOf (problem : Problem) (size : Nat) : List Program :=
  (sketchesOf problem.config.operators problem.inputs.length size).filter fun p =>
    isAdmissible p.operators (.of problem.inputs problem.target)

/-- The events of searching the programs of one size. -/
def sizeEvents (problem : Problem) (size : Nat) : List Event :=
  .size size ::
    .sketches size (sketchesOf problem.config.operators problem.inputs.length size).length
      (admittedOf problem size).length ::
    (admittedOf problem size).flatMap (sketchEvents problem)

/-- The events of a whole search. -/
def searchEvents (problem : Problem) (maxSize : Nat) : List Event :=
  (List.range (maxSize + 1)).flatMap (sizeEvents problem)

section Traversal

variable {m : Type → Type} [Monad m] [LawfulMonad m] (visit : Event → m Unit)

theorem for_m_flat_map {α : Type} (events : α → List Event) (l : List α) :
    forM (l.flatMap events) visit = forM l fun a => forM (events a) visit := by
  induction l with
  | nil => rfl
  | cons a rest ih => simp_all

theorem fill_step_eq (config : Config) (below : Table) {next : Step → m Unit}
    {events : Step → List Event} (same : ∀ step, next step = (events step).forM visit)
    (left position : Nat) (step : Step) :
    fillStep visit config below next left position step =
      (fillEvents config below events left position step).forM visit := by
  induction left generalizing position step with
  | zero => simp [fillStep, fillEvents, same]
  | succ left ih =>
    rw [fillStep, fillEvents]
    simp only [List.forM_eq_forM, List.forM_cons]
    refine bind_congr fun _ => ?_
    split
    · cases step.domain position below config with
      | error refusal => rfl
      | ok values =>
        simp only [ih]
        exact (for_m_flat_map visit _ _).symm
    · exact ih _ _

theorem ascend_eq (config : Config) (chain : Chain) (input : Nat) (inward done : List Step)
    (value : Table) : ascend visit config chain input inward done value =
      (ascendEvents config chain input inward done value).forM visit := by
  induction inward generalizing done value with
  | nil => simp [ascend, ascendEvents]
  | cons step above ih =>
    rw [ascend, ascendEvents]
    refine fill_step_eq visit config value (fun step => ?_) _ _ _
    split
    · simp
    · simp only [List.forM_eq_forM, List.forM_cons]
      refine bind_congr fun _ => ?_
      cases step.apply value with
      | error refusal => simp
      | ok out =>
        dsimp only
        split
        · exact ih _ _
        · simp

theorem instantiate_eq (inputs : List Table) (config : Config) (chain : Chain) (sketch : Program) :
    instantiate visit inputs config chain sketch =
      (instantiateEvents inputs config chain sketch).forM visit := by
  rw [instantiate, instantiateEvents]
  cases inputs[sketch.input]? with
  | none => rfl
  | some table =>
    dsimp only
    split
    · exact ascend_eq visit ..
    · simp

theorem search_sketch_eq (problem : Problem) (sketch : Program) :
    searchSketch visit problem sketch = (sketchEvents problem sketch).forM visit := by
  simp only [searchSketch, sketchEvents, List.forM_eq_forM, List.forM_cons]
  refine bind_congr fun _ => ?_
  simp only [for_m_flat_map, List.forM_cons, instantiate_eq, List.forM_eq_forM]

/-- Searching one size sends its events and keeps the store of levels. -/
theorem search_size_eq (problem : Problem) (size : Nat) {levels : Levels}
    (built : levels.Built problem.config.operators problem.inputs.length) :
    ∃ kept : Levels, kept.Built problem.config.operators problem.inputs.length ∧
      searchSizes.searchSize visit problem (.of problem.inputs problem.target) size levels = do
        (sizeEvents problem size).forM visit
        return kept := by
  obtain ⟨all, grown⟩ := Levels.level_spec built size
  obtain ⟨admitted, kept⟩ := Levels.admissible_spec grown size (.of problem.inputs problem.target)
  refine ⟨_, kept, ?_⟩
  have each : searchSketch visit problem = fun sketch => forM (sketchEvents problem sketch) visit :=
    funext (search_sketch_eq visit problem)
  rw [searchSizes.searchSize]
  simp only [all, admitted, sizeEvents, admittedOf, List.forM_eq_forM, List.forM_cons,
    for_m_flat_map, each, bind_assoc]

theorem search_sizes_eq (problem : Problem) (more size : Nat) {levels : Levels}
    (built : levels.Built problem.config.operators problem.inputs.length) :
    searchSizes visit problem (.of problem.inputs problem.target) more size levels =
      ((List.range' size (more + 1)).flatMap (sizeEvents problem)).forM visit := by
  induction more generalizing size levels with
  | zero =>
    obtain ⟨kept, -, sent⟩ := search_size_eq visit problem size built
    simp [searchSizes, sent]
  | succ more ih =>
    obtain ⟨kept, still, sent⟩ := search_size_eq visit problem size built
    rw [searchSizes, sent, List.range'_succ, List.flatMap_cons, List.forM_eq_forM,
      List.forM_append, bind_assoc]
    simp only [List.forM_eq_forM, pure_bind, ih (size + 1) still]

/-- **A search is its list of events**, whoever listens. -/
theorem search_eq_events (problem : Problem) (maxSize : Nat) :
    search visit problem maxSize = (searchEvents problem maxSize).forM visit := by
  rw [search, search_sizes_eq visit problem maxSize 0 (Levels.start_built _ _), searchEvents,
    List.range_eq_range']

end Traversal
end Search
end Reshape
