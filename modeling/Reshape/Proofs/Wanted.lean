import Reshape.Proofs.Instantiation

/-! What a search finds, said without the search. A program is wanted when it
stays within the settings, its arguments are drawn one after the other from
their domains, and the rules push the target back through its operators to
tables that its parts include. The events of a search find the wanted programs
and no others, smaller programs before larger ones. -/
namespace Reshape

variable {inputs : List Table} {config : Config} {input : Nat}

/-- What it is for a program to be wanted: a sequence of premises, one for each
depth, takes the place of the search's chains. -/
structure Wanted (problem : Problem) (maxSize : Nat) (p : Program) : Prop where
  reads : p.input < problem.inputs.length
  small : p.size ≤ maxSize
  configured : ∀ op ∈ p.operators, op ∈ problem.config.operators
  admissible : isAdmissible p.operators (.of problem.inputs problem.target) = true
  drawn : ∀ (d : Nat) (step : Step), p.steps[d]? = some step → ∃ below choice,
    evalSteps problem.inputs p.input (p.steps.drop (d + 1)) = .ok below ∧
      step.Chosen problem.config below choice
  premises : ∃ premise : Nat → Table, premise 0 = problem.target ∧
    (∀ (d : Nat) (op : Operator), p.operators[d]? = some op →
      premise (d + 1) ∈ op.backward (premise d) (d = 0)) ∧
    ∀ d ≤ p.size, ∃ t, evalSteps problem.inputs p.input (p.steps.drop d) = .ok t ∧
      (premise d).includedIn t = true

theorem Wanted.mono {problem : Problem} {size larger : Nat} (le : size ≤ larger) {p : Program}
    (wanted : Wanted problem size p) : Wanted problem larger p :=
  { wanted with small := wanted.small.trans le }

/-- Steps can be filled by some choice when each of them can be chosen above the
value of those beneath it. -/
theorem filled_iff {steps : List Step} :
    (∃ choice, Filled inputs config input [] steps choice) ↔
      ∀ (d : Nat) (step : Step), steps[d]? = some step → ∃ below choice,
        evalSteps inputs input (steps.drop (d + 1)) = .ok below ∧
          step.Chosen config below choice := by
  induction steps with
  | nil => exact ⟨fun _ => nofun, fun _ => ⟨[], .nothing⟩⟩
  | cons first rest ih =>
    constructor
    · rintro ⟨_, filled⟩ d step held
      cases filled with
      | around within beneath chosen =>
        rw [List.append_nil] at beneath
        cases d with
        | zero =>
          cases held
          exact ⟨_, _, beneath, chosen⟩
        | succ d => exact ih.mp ⟨_, within⟩ d step held
    · intro each
      obtain ⟨below, own, beneath, chosen⟩ := each 0 first rfl
      obtain ⟨choice, within⟩ := ih.mpr fun d step held => each (d + 1) step held
      exact ⟨choice ++ own, .around within (by simpa using beneath) chosen⟩

theorem Wanted.concrete {problem : Problem} {size : Nat} {p : Program}
    (wanted : Wanted problem size p) : p.isConcrete = true := by
  obtain ⟨choice, filled⟩ := filled_iff.mpr wanted.drawn
  exact List.all_eq_true.mpr filled.concrete

/-- A wanted program has a value, which includes the target. -/
theorem Wanted.evaluates {problem : Problem} {size : Nat} {p : Program}
    (wanted : Wanted problem size p) :
    ∃ value, p.eval problem.inputs = .ok value ∧ problem.target.includedIn value = true := by
  obtain ⟨premise, first, -, meets⟩ := wanted.premises
  obtain ⟨value, made, included⟩ := meets 0 (Nat.zero_le _)
  exact ⟨value, made, first ▸ included⟩

/-- A derivation that a program meets is a sequence of premises by depth. -/
theorem meets_derivation_iff {p : Program} {target : Table} :
    (∃ premises ∈ derivations 0 p.operators target, p.Meets inputs premises) ↔
      ∃ premise : Nat → Table, premise 0 = target ∧
        (∀ (d : Nat) (op : Operator), p.operators[d]? = some op →
          premise (d + 1) ∈ op.backward (premise d) (d = 0)) ∧
        ∀ d ≤ p.size, ∃ t, evalSteps inputs p.input (p.steps.drop d) = .ok t ∧
          (premise d).includedIn t = true := by
  have size : p.operators.length = p.size := List.length_map _
  constructor
  · rintro ⟨premises, derived, meets⟩
    obtain ⟨length, first, each⟩ := mem_derivations.mp derived
    have entry {d : Nat} (inside : d ≤ p.size) :
        premises[d]? = some (premises.getD d target) := by
      have bound : d < premises.length := by omega
      simp [bound]
    refine ⟨(premises.getD · target), by simp [first], ?_, ?_⟩
    · intro d op operator
      have inside : d < p.size := size ▸ (List.getElem?_eq_some_iff.mp operator).1
      simpa using each d op _ _ operator (entry inside.le) (entry inside)
    · intro d inside
      obtain ⟨premise, t, held, value, included⟩ := meets d inside
      rw [entry inside, Option.some.injEq] at held
      rw [← held] at included
      exact ⟨t, value, included⟩
  · rintro ⟨premise, first, each, meets⟩
    refine ⟨(List.range (p.size + 1)).map premise, mem_derivations.mpr ⟨?_, ?_, ?_⟩, ?_⟩
    · simp [size]
    · simp [first]
    · intro d op t next operator here below
      have inside : d < p.size := size ▸ (List.getElem?_eq_some_iff.mp operator).1
      simp only [List.getElem?_map, List.getElem?_range (Nat.lt_succ_of_lt inside),
        List.getElem?_range (Nat.succ_lt_succ inside), Option.map_some, Option.some.injEq]
        at here below
      subst here below
      simpa using each d op operator
    · intro d inside
      obtain ⟨t, value, included⟩ := meets d inside
      refine ⟨premise d, t, ?_, value, included⟩
      simp [List.getElem?_range (Nat.lt_succ_of_le inside)]

namespace Search

theorem mem_finds_of {events : List Event} {p : Program} {value : Table} :
    (p, value) ∈ findsOf events ↔ .found p value ∈ events := by
  rw [findsOf, List.mem_filterMap]
  constructor
  · rintro ⟨event, member, found⟩
    split at found
    · cases found
      exact member
    · cases found
  · intro member
    exact ⟨_, member, rfl⟩

/-- What one sketch finds. -/
theorem found_in_sketch_iff {problem : Problem} (shapedInputs : ∀ t ∈ problem.inputs, t.Shaped)
    (shapedTarget : problem.target.Shaped) {operators : List Operator} {input : Nat} {p : Program}
    {value : Table} :
    .found p value ∈ sketchEvents problem (Program.sketch operators input) ↔
      p.input = input ∧ p.operators = operators ∧
        (∃ choice, Filled problem.inputs problem.config input [] p.steps choice) ∧
          (∃ premises ∈ derivations 0 operators problem.target,
            p.Meets problem.inputs premises) ∧ p.eval problem.inputs = .ok value := by
  have sent : Event.found p value ∈ sketchEvents problem (Program.sketch operators input) ↔
      ∃ premises ∈ derivations 0 operators problem.target, .found p value ∈
        instantiateEvents problem.inputs problem.config premises
          (Program.sketch operators input) := by
    rw [sketchEvents, Program.sketch_operators, ← Premises.chains_targets]
    simp
  have kept (premises : List Table) (derived : premises ∈ derivations 0 operators problem.target) :
      .found p value ∈ instantiateEvents problem.inputs problem.config premises
          (Program.sketch operators input) ↔
        ∃ choice, Keeps problem.inputs problem.config premises operators input choice
          (p, value) := by
    obtain ⟨ways, -, each, found⟩ := instantiate_lists problem.config shapedInputs
      (derivations_shaped shapedTarget derived) (mem_derivations.mp derived).1 input
    rw [← mem_finds_of, found, List.mem_map]
    constructor
    · rintro ⟨⟨choice, _⟩, held, rfl⟩
      exact ⟨choice, (each choice _).mp held⟩
    · rintro ⟨choice, keeps⟩
      exact ⟨(choice, p, value), (each choice _).mpr keeps, rfl⟩
  rw [sent]
  constructor
  · rintro ⟨premises, derived, member⟩
    obtain ⟨choice, keeps⟩ := (kept premises derived).mp member
    exact ⟨keeps.input_eq, keeps.operators_eq, ⟨choice, keeps.filled⟩,
      ⟨premises, derived, keeps.meets⟩, keeps.value_eq⟩
  · rintro ⟨reads, same, ⟨choice, filled⟩, ⟨premises, derived, meets⟩, value_eq⟩
    exact ⟨premises, derived, (kept premises derived).mpr
      ⟨choice, reads, same, filled, meets, value_eq⟩⟩

/-- The events of one size find the wanted programs of that size. -/
theorem found_in_size_iff {problem : Problem} (shapedInputs : ∀ t ∈ problem.inputs, t.Shaped)
    (shapedTarget : problem.target.Shaped) {size : Nat} {p : Program} {value : Table} :
    .found p value ∈ sizeEvents problem size ↔
      p.size = size ∧ Wanted problem size p ∧ p.eval problem.inputs = .ok value := by
  have sent : Event.found p value ∈ sizeEvents problem size ↔
      ∃ sketch ∈ admittedOf problem size, .found p value ∈ sketchEvents problem sketch := by
    simp [sizeEvents]
  have length : p.operators.length = p.size := List.length_map _
  rw [sent]
  constructor
  · rintro ⟨sketch, admitted, member⟩
    obtain ⟨held, admissible⟩ := List.mem_filter.mp admitted
    obtain ⟨operators, input, inside, total, configured, rfl⟩ := mem_sketches_of.mp held
    obtain ⟨reads, same, filled, derived, value_eq⟩ :=
      (found_in_sketch_iff shapedInputs shapedTarget).mp member
    subst reads same
    rw [Program.sketch_operators] at admissible
    have sized : p.size = size := length.symm.trans total
    exact ⟨sized, ⟨inside, sized.le, configured, admissible, filled_iff.mp filled,
      meets_derivation_iff.mp derived⟩, value_eq⟩
  · rintro ⟨rfl, wanted, value_eq⟩
    refine ⟨Program.sketch p.operators p.input, List.mem_filter.mpr ⟨?_, ?_⟩, ?_⟩
    · exact mem_sketches_of.mpr ⟨p.operators, p.input, wanted.reads, length, wanted.configured, rfl⟩
    · rw [Program.sketch_operators]
      exact wanted.admissible
    · exact (found_in_sketch_iff shapedInputs shapedTarget).mpr
        ⟨rfl, rfl, filled_iff.mpr wanted.drawn, meets_derivation_iff.mpr wanted.premises, value_eq⟩

/-- **A search finds the wanted programs**, each with its value. -/
theorem found_iff_wanted {problem : Problem} (shapedInputs : ∀ t ∈ problem.inputs, t.Shaped)
    (shapedTarget : problem.target.Shaped) {maxSize : Nat} {p : Program} {value : Table} :
    .found p value ∈ searchEvents problem maxSize ↔
      Wanted problem maxSize p ∧ p.eval problem.inputs = .ok value := by
  simp only [searchEvents, List.mem_flatMap, List.mem_range, Nat.lt_succ_iff,
    found_in_size_iff shapedInputs shapedTarget]
  constructor
  · rintro ⟨size, inside, -, wanted, value_eq⟩
    exact ⟨wanted.mono inside, value_eq⟩
  · rintro ⟨wanted, value_eq⟩
    exact ⟨p.size, wanted.small, rfl, { wanted with small := le_rfl }, value_eq⟩

/-- Programs are found in the order of their sizes. -/
theorem finds_sorted {problem : Problem} (shapedInputs : ∀ t ∈ problem.inputs, t.Shaped)
    (shapedTarget : problem.target.Shaped) (maxSize : Nat) :
    ((findsOf (searchEvents problem maxSize)).map Prod.fst).Pairwise fun p q =>
      p.size ≤ q.size := by
  have sized (size : Nat) (find : Find) (member : find ∈ findsOf (sizeEvents problem size)) :
      find.1.size = size :=
    ((found_in_size_iff shapedInputs shapedTarget).mp (mem_finds_of.mp member)).1
  rw [List.pairwise_map, searchEvents, findsOf, List.filterMap_flatMap, List.pairwise_flatMap]
  constructor
  · intro size _
    refine List.pairwise_of_forall_mem_list fun first memberFirst second memberSecond => ?_
    rw [sized size first memberFirst, sized size second memberSecond]
  · refine List.pairwise_lt_range.imp fun {size larger} less => ?_
    intro first memberFirst second memberSecond
    rw [sized size first memberFirst, sized larger second memberSecond]
    exact less.le

end Search
end Reshape
