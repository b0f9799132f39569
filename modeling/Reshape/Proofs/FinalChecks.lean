import Reshape.Proofs.Truncation

/-! The final check never rejects. The table that is carried up while a sketch is
filled is the value of the program so far, and the premise at the top of every
chain is the target as it was given. So the value a program is found with is the
value that it evaluates to, and the target is included in it; evaluating and
aligning once more finds out nothing new. What a run checks it accepts, and its
counts agree wherever it ends. -/
namespace Reshape.Search

variable {problem : Problem} {budgets : Budgets} {readings : Nat → Nat}

section Finds

variable {p : Program} {value : Table}

/-- The premise at the top of a chain is the target. -/
theorem chain_top {operators : List Operator} {target : Table} {chain : List Obligation}
    (chained : chain ∈ (Premises.build operators target).chains) :
    (chain.map Obligation.target)[0]? = some target := by
  have derived : chain.map Obligation.target ∈ derivations 0 operators target := by
    rw [← Premises.chains_targets]
    exact List.mem_map_of_mem chained
  exact (mem_derivations.mp derived).2.1

/-- The table carried up to a program is its value, and it meets the premise at the top. -/
theorem instantiate_evaluates {inputs : List Table} {config : Config} {chain : Chain}
    {sketch : Program} (found : .found p value ∈ instantiateEvents inputs config chain sketch) :
    p.eval inputs = .ok value ∧ chain.holdsAt 0 value = true := by
  obtain ⟨reads, ran, met⟩ := found_of_instantiate
    (fun depth done t => evalSteps inputs sketch.input done = .ok t ∧ chain.holdsAt depth t = true)
    (fun carried applied met => ⟨bind_eq_ok.mpr ⟨_, carried.1, applied⟩, met⟩)
    (fun t given met => ⟨eval_input_eq_ok.mpr given, met⟩) found
  rw [Program.eval, reads]
  exact ⟨ran, met⟩

/-- **A program is found with its value**, and the target is included in it. -/
theorem found_evaluates {maxSize : Nat} (found : .found p value ∈ searchEvents problem maxSize) :
    p.eval problem.inputs = .ok value ∧ problem.target.includedIn value = true := by
  obtain ⟨size, -, found⟩ := List.mem_flatMap.mp found
  obtain ⟨sketch, -, chain, chained, found⟩ := found_of_size found
  obtain ⟨ran, met⟩ := instantiate_evaluates found
  rw [Chain.holdsAt, chain_top chained] at met
  exact ⟨ran, met⟩

end Finds

/-- What an event hands to the final check: a program that was not found before, with the
value it was found with. -/
def handed (p : Progress) : Event → List Find
  | .found program value => if program.canonical ∈ p.seen then [] else [(program, value)]
  | _ => []

/-- What a run hands to the final check that hears these events from a state on. -/
def handedAll (problem : Problem) (budgets : Budgets) (readings : Nat → Nat) :
    (number : Nat) → List Event → Progress → List Find
  | _, [], _ => []
  | number, event :: rest, p =>
    handed p event ++
      if (p.next problem budgets (readings number) event).2 then
        handedAll problem budgets readings (number + 1) rest
          (p.next problem budgets (readings number) event).1
      else []

/-- The counts of a state and of one that follows it: whatever was handed to the final check
in between is counted, and accepted as far as it stands the check. -/
structure Checks (problem : Problem) (p q : Progress) (finds : List Find) : Prop where
  counted : q.report.finalChecks = p.report.finalChecks + finds.length
  accepted : q.solutions = p.solutions ++ finds.filterMap fun find => finalCheck problem find.1

namespace Checks

variable {p q r : Progress} {finds more : List Find}

theorem refl (problem : Problem) (p : Progress) : Checks problem p p [] :=
  ⟨rfl, (List.append_nil _).symm⟩

theorem trans (first : Checks problem p q finds) (second : Checks problem q r more) :
    Checks problem p r (finds ++ more) := by
  constructor
  · rw [second.counted, first.counted, List.length_append, Nat.add_assoc]
  · rw [second.accepted, first.accepted, List.filterMap_append, List.append_assoc]

end Checks

theorem record_final_checks (r : Report) (event : Event) :
    (r.record event).finalChecks = r.finalChecks := by
  cases event <;> rfl

theorem settle_final_checks (p : Progress) (now : Nat) :
    (p.settle now).report.finalChecks = p.report.finalChecks := by
  rw [Progress.settle]
  split <;> rfl

/-- An event checks what it hands over. -/
theorem next_checks (problem : Problem) (budgets : Budgets) (now : Nat) (event : Event)
    (p : Progress) :
    Checks problem p (p.next problem budgets now event).1 (handed p event) := by
  cases event with
  | found program value =>
    by_cases known : program.canonical ∈ p.seen
    · simp only [Progress.next, known, if_true, handed]
      exact .refl problem p
    · simp only [Progress.next, known, if_false, handed]
      refine ⟨rfl, congrArg (p.solutions ++ ·) ?_⟩
      cases checked : finalCheck problem program <;> simp [checked]
  | check =>
    by_cases expired : budgets.timeLimit ≤ now
    · simp only [Progress.next, expired, if_true]
      exact ⟨rfl, (List.append_nil _).symm⟩
    · simp only [Progress.next, expired, if_false]
      exact .refl problem p
  | size size =>
    refine ⟨?_, ?_⟩
    · simp [Progress.next, settle_final_checks, record_final_checks, handed]
    · simp [Progress.next, settle_solutions, handed]
  | _ => exact ⟨record_final_checks _ _, (List.append_nil _).symm⟩

/-- A run checks what it hands over. -/
theorem follow_checks (events : List Event) (p : Progress) (number : Nat) :
    Checks problem p (follow problem budgets readings number events p).1
      (handedAll problem budgets readings number events p) := by
  induction events generalizing p number with
  | nil => exact .refl problem p
  | cons event rest ih =>
    have here := next_checks problem budgets (readings number) event p
    rw [follow, handedAll]
    split
    · exact here.trans (ih _ _)
    · rwa [List.append_nil]

theorem found_of_handed {p : Progress} {event : Event} {find : Find}
    (member : find ∈ handed p event) : event = .found find.1 find.2 := by
  cases event with
  | found program value =>
    rw [handed] at member
    split at member
    · cases member
    · cases List.mem_singleton.mp member
      rfl
  | _ => cases member

/-- A run hands over only what it hears of. -/
theorem found_of_handed_all {events : List Event} {p : Progress} {number : Nat} {find : Find}
    (member : find ∈ handedAll problem budgets readings number events p) :
    .found find.1 find.2 ∈ events := by
  induction events generalizing p number with
  | nil => cases member
  | cons event rest ih =>
    rw [handedAll] at member
    rcases List.mem_append.mp member with here | later
    · rw [found_of_handed here]
      exact List.mem_cons_self
    · split at later
      · exact List.mem_cons_of_mem _ (ih later)
      · cases later

/-- What a run of synthesis hands to the final check, in that order: programs with the tables
that were computed for them while their sketches were filled. -/
def finalCandidates (readings : Nat → Nat) (problem : Problem) (budgets : Budgets) : List Find :=
  handedAll problem budgets readings 0 (searchEvents problem budgets.maxSize) .start

/-- The final check computes the table that is there already, and accepts. -/
theorem final_check_of_candidate {find : Find}
    (member : find ∈ finalCandidates readings problem budgets) :
    find.1.eval problem.inputs = .ok find.2 ∧
      ∃ alignment, Table.align .included problem.target find.2 = some alignment ∧
        finalCheck problem find.1 = some ⟨find.1, find.2, alignment⟩ := by
  obtain ⟨ran, included⟩ := found_evaluates (found_of_handed_all member)
  obtain ⟨alignment, aligned⟩ := Option.isSome_iff_exists.mp included
  exact ⟨ran, alignment, aligned, final_check_eq_some.mpr ⟨rfl, ran, aligned⟩⟩

/-- The result of a run accepts its candidates with the tables found, and counts them. -/
theorem outcome_candidates (readings : Nat → Nat) (problem : Problem) (budgets : Budgets) :
    (outcome readings problem budgets).solutions.map (fun s => (s.program, s.output)) =
        finalCandidates readings problem budgets ∧
      (outcome readings problem budgets).report.finalChecks =
        (finalCandidates readings problem budgets).length := by
  have checks : Checks problem .start _ (finalCandidates readings problem budgets) :=
    follow_checks (searchEvents problem budgets.maxSize) .start 0
  have each : ∀ find ∈ finalCandidates readings problem budgets,
      ((finalCheck problem find.1).map fun s => (s.program, s.output)) = some find := by
    intro find member
    obtain ⟨-, alignment, -, passes⟩ := final_check_of_candidate member
    rw [passes, Option.map_some]
  constructor
  · rw [outcome_solutions, checks.accepted, Progress.start, List.nil_append, List.map_filterMap,
      List.filterMap_congr each, List.filterMap_some]
  · exact (settle_final_checks _ _).trans (checks.counted.trans (Nat.zero_add _))

/-- **The final check never rejects.** On any inputs, target, configuration and valid limits,
and at any readings of the clock, each program that a run hands to the final check evaluates to
the very table it was found with, and the target aligns with that table. So the run has as many
final checks as it accepts programs, which are its solutions, whether its time was up or not. -/
theorem synthesize_never_rejects (readings : Nat → Nat) {problem : Problem} {budgets : Budgets}
    (given : problem.inputs ≠ []) (valid : budgets.validate = .ok ()) :
    ∃ result, synthesize readings problem budgets = .ok result ∧
      (∀ find ∈ finalCandidates readings problem budgets,
        find.1.eval problem.inputs = .ok find.2 ∧
          ∃ alignment, Table.align .included problem.target find.2 = some alignment) ∧
      result.solutions.map (fun s => (s.program, s.output)) =
        finalCandidates readings problem budgets ∧
      result.report.finalChecks = (finalCandidates readings problem budgets).length ∧
      result.report.finalChecks = result.report.accepted ∧
      result.report.accepted = result.solutions.length := by
  obtain ⟨solved, counted⟩ := outcome_candidates readings problem budgets
  refine ⟨_, synthesize_eq_ok readings given valid, fun find member => ?_, solved, counted, ?_, rfl⟩
  · obtain ⟨ran, alignment, aligned, -⟩ := final_check_of_candidate member
    exact ⟨ran, alignment, aligned⟩
  · rw [counted, ← solved, List.length_map]
    rfl

/-- A clock on which the time is up from the fifteenth reading on. -/
def stopping (number : Nat) : Nat := if number < 15 then 0 else 1

/-- Of the four programs that the zeros have, a run whose time is up behind the third has
checked three and accepted all three. -/
theorem synthesize_never_rejects_zeros :
    ∃ result, synthesize stopping zeros ⟨1, 1, 9⟩ = .ok result ∧
      result.report.timedOut = true ∧ result.report.finalChecks = 3 ∧
      result.report.accepted = 3 ∧ result.solutions.length = 3 ∧
      ∀ find ∈ finalCandidates stopping zeros ⟨1, 1, 9⟩, find.1.eval zeros.inputs = .ok find.2 := by
  have given : zeros.inputs ≠ [] := by decide
  have valid : Budgets.validate ⟨1, 1, 9⟩ = .ok () := rfl
  obtain ⟨result, ran, evaluates, -, -, same, total⟩ :=
    synthesize_never_rejects stopping given valid
  have counts : (synthesize stopping zeros ⟨1, 1, 9⟩).map
      (fun r => (r.report.timedOut, r.report.finalChecks)) = .ok (true, 3) := by decide +kernel
  rw [ran, map_eq_ok] at counts
  obtain ⟨_, ⟨⟩, counts⟩ := counts
  obtain ⟨timed, three⟩ := Prod.mk.inj counts
  have accepted : result.report.accepted = 3 := same.symm.trans three
  exact ⟨result, ran, timed, three, accepted, total.symm.trans accepted,
    fun find member => (evaluates find member).1⟩

end Reshape.Search
