import Mathlib.Data.List.Nodup
import Reshape.Proofs.Run
import Reshape.Proofs.Wanted

/-! What a run accepts. Whenever it ends, and whatever the clock shows, each of
its solutions is a whole program that evaluates to the output it comes with,
and the target is included in that output under its alignment. The solutions
are found in the order of their sizes, no two of them are equal in value, and
there are no more of them than the limit allows. -/
namespace Reshape.Search

variable {problem : Problem} {budgets : Budgets}

/-- A solution that stands on its own: nothing of the run that found it is
needed to see that it is one. -/
structure Accepted (problem : Problem) (budgets : Budgets) (s : Solution) : Prop where
  concrete : s.program.isConcrete = true
  value_eq : s.program.eval problem.inputs = .ok s.output
  aligned : Table.Matches .included problem.target s.output s.alignment
  configured : ∀ op ∈ s.program.operators, op ∈ problem.config.operators
  admissible : isAdmissible s.program.operators (.of problem.inputs problem.target) = true
  small : s.program.size ≤ budgets.maxSize

/-- The final check accepts a program with its value and the first alignment of
the target. -/
theorem final_check_eq_some {program : Program} {s : Solution} :
    finalCheck problem program = some s ↔ s.program = program ∧
      program.eval problem.inputs = .ok s.output ∧
        Table.align .included problem.target s.output = some s.alignment := by
  rw [finalCheck]
  cases value : program.eval problem.inputs with
  | error refusal => simp
  | ok output =>
    simp only [Option.map_eq_some_iff, Except.ok.injEq]
    constructor
    · rintro ⟨alignment, aligned, rfl⟩
      exact ⟨rfl, rfl, aligned⟩
    · rintro ⟨rfl, rfl, aligned⟩
      exact ⟨s.alignment, aligned, rfl⟩

/-- What holds of the accepted programs after every event. -/
structure Kept (problem : Problem) (p : Progress) : Prop where
  checked : ∀ s ∈ p.solutions, finalCheck problem s.program = some s
  known : ∀ s ∈ p.solutions, s.program.canonical ∈ p.seen
  different : (p.solutions.map fun s => s.program.canonical).Nodup

theorem start_kept (problem : Problem) : Kept problem .start :=
  ⟨by simp [Progress.start], by simp [Progress.start], by simp [Progress.start]⟩

theorem Hears.kept {now : Nat} {event : Event} {p : Progress} {after : Progress × Bool}
    (heard : Hears problem budgets now p event after) (kept : Kept problem p) :
    Kept problem after.1 := by
  cases heard with
  | fresh unseen solutions seen =>
    rename_i program value q
    have newKnown (s : Solution) (checked : finalCheck problem program = some s) :
        s.program = program := (final_check_eq_some.mp checked).1
    constructor
    · intro s member
      rw [solutions, List.mem_append, Option.mem_toList] at member
      rcases member with old | new
      · exact kept.checked s old
      · rw [newKnown s new]
        exact new
    · intro s member
      rw [solutions, List.mem_append, Option.mem_toList] at member
      rw [seen, List.mem_cons]
      rcases member with old | new
      · exact .inr (kept.known s old)
      · exact .inl (congrArg Program.canonical (newKnown s new))
    · rw [solutions, List.map_append, List.nodup_append]
      refine ⟨kept.different, ?_, ?_⟩
      · cases finalCheck problem program <;> simp
      · intro a old b new same
        obtain ⟨s, held, rfl⟩ := List.mem_map.mp old
        obtain ⟨s', checked, rfl⟩ := List.mem_map.mp new
        rw [newKnown s' (Option.mem_toList.mp checked)] at same
        exact unseen (same ▸ kept.known s held)
  | again _ solutions seen | late _ solutions seen | silent _ _ solutions seen =>
    exact ⟨solutions ▸ kept.checked, solutions ▸ seen ▸ kept.known, solutions ▸ kept.different⟩

theorem follow_kept (readings : Nat → Nat) (events : List Event) {p : Progress}
    (kept : Kept problem p) (number : Nat) :
    Kept problem (follow problem budgets readings number events p).1 := by
  induction events generalizing p number with
  | nil => exact kept
  | cons event rest ih =>
    rw [follow]
    split
    · exact ih ((next_hears ..).kept kept) (number + 1)
    · exact (next_hears ..).kept kept

/-- One event accepts at most the program it finds. -/
theorem Hears.grows {now : Nat} {event : Event} {p : Progress} {after : Progress × Bool}
    (heard : Hears problem budgets now p event after) : ∃ more,
      after.1.solutions = p.solutions ++ more ∧ more.length ≤ 1 ∧
        (more.map Solution.program).Sublist ((findsOf [event]).map Prod.fst) := by
  cases heard with
  | fresh unseen solutions seen =>
    rename_i program value q
    refine ⟨_, solutions, ?_⟩
    cases checked : finalCheck problem program with
    | none => exact ⟨by simp, by simp⟩
    | some s =>
      rw [← (final_check_eq_some.mp checked).1]
      exact ⟨by simp, by simp [findsOf]⟩
  | again _ solutions _ | late _ solutions _ | silent _ _ solutions _ =>
    exact ⟨[], by simp [solutions], by simp, by simp⟩

/-- The programs that a run accepts are found in their order. -/
theorem follow_grows (problem : Problem) (budgets : Budgets) (readings : Nat → Nat)
    (events : List Event) (p : Progress) (number : Nat) :
    ∃ more, (follow problem budgets readings number events p).1.solutions = p.solutions ++ more ∧
      (more.map Solution.program).Sublist ((findsOf events).map Prod.fst) := by
  induction events generalizing p number with
  | nil => exact ⟨[], by simp [follow], by simp⟩
  | cons event rest ih =>
    obtain ⟨first, grown, -, found⟩ :=
      (next_hears problem budgets (readings number) event p).grows
    rw [follow, finds_of_cons, List.map_append]
    split
    · obtain ⟨more, all, later⟩ :=
        ih (p.next problem budgets (readings number) event).1 (number + 1)
      refine ⟨first ++ more, by rw [all, grown, List.append_assoc], ?_⟩
      rw [List.map_append]
      exact found.append later
    · exact ⟨first, grown, found.trans (List.sublist_append_left _ _)⟩

/-- While a run goes on there is room for another solution. -/
theorem Hears.room {now : Nat} {event : Event} {p : Progress} {after : Progress × Bool}
    (heard : Hears problem budgets now p event after)
    (room : p.solutions.length < budgets.solutionLimit) (goesOn : after.2 = true) :
    after.1.solutions.length < budgets.solutionLimit := by
  cases heard with
  | fresh _ _ _ => exact of_decide_eq_true goesOn
  | again _ solutions _ | silent _ _ solutions _ => exact solutions ▸ room
  | late _ _ _ => cases goesOn

theorem follow_limit (problem : Problem) (readings : Nat → Nat) (events : List Event)
    {p : Progress} (room : p.solutions.length < budgets.solutionLimit) (number : Nat) :
    (follow problem budgets readings number events p).1.solutions.length ≤
      budgets.solutionLimit := by
  induction events generalizing p number with
  | nil => exact room.le
  | cons event rest ih =>
    have heard := next_hears problem budgets (readings number) event p
    rw [follow]
    split
    · rename_i goesOn
      exact ih (heard.room room goesOn) (number + 1)
    · obtain ⟨more, grown, single, -⟩ := heard.grows
      rw [grown, List.length_append]
      omega

theorem outcome_solutions (readings : Nat → Nat) (problem : Problem) (budgets : Budgets) :
    (outcome readings problem budgets).solutions =
      (follow problem budgets readings 0 (searchEvents problem budgets.maxSize) .start).1.solutions :=
  settle_solutions _ _

theorem validate_eq_ok : validate problem budgets = .ok () ↔
    problem.inputs ≠ [] ∧ budgets.validate = .ok () := by
  simp [validate, guard_eq_ok]

theorem limit_positive (valid : budgets.validate = .ok ()) : 0 < budgets.solutionLimit := by
  rw [Budgets.validate] at valid
  split at valid
  · cases valid
  · split at valid
    · cases valid
    · omega

theorem time_positive (valid : budgets.validate = .ok ()) : 0 < budgets.timeLimit := by
  rw [Budgets.validate] at valid
  split at valid
  · cases valid
  · omega

/-- A valid problem has a result. -/
theorem synthesize_eq_ok (readings : Nat → Nat) (given : problem.inputs ≠ [])
    (valid : budgets.validate = .ok ()) :
    synthesize readings problem budgets = .ok (outcome readings problem budgets) := by
  rw [synthesize_eq, validate_eq_ok.mpr ⟨given, valid⟩]
  rfl

theorem outcome_kept (readings : Nat → Nat) (problem : Problem) (budgets : Budgets) :
    (∀ s ∈ (outcome readings problem budgets).solutions, finalCheck problem s.program = some s) ∧
      ((outcome readings problem budgets).solutions.map fun s => s.program.canonical).Nodup := by
  have kept : Kept problem
      (follow problem budgets readings 0 (searchEvents problem budgets.maxSize) .start).1 :=
    follow_kept readings _ (start_kept problem) 0
  rw [outcome_solutions]
  exact ⟨kept.checked, kept.different⟩

/-- The programs of a result are programs found, in the order of the search. -/
theorem outcome_found (readings : Nat → Nat) (problem : Problem) (budgets : Budgets) :
    ((outcome readings problem budgets).solutions.map Solution.program).Sublist
      ((findsOf (searchEvents problem budgets.maxSize)).map Prod.fst) := by
  obtain ⟨solutions, grown, found⟩ := follow_grows problem budgets readings
    (searchEvents problem budgets.maxSize) .start 0
  rw [outcome_solutions, grown]
  exact found

theorem outcome_wanted (readings : Nat → Nat) (shapedInputs : ∀ t ∈ problem.inputs, t.Shaped)
    (shapedTarget : problem.target.Shaped) {s : Solution}
    (member : s ∈ (outcome readings problem budgets).solutions) :
    Wanted problem budgets.maxSize s.program := by
  have found := (outcome_found readings problem budgets).subset (List.mem_map_of_mem member)
  obtain ⟨⟨p, value⟩, held, same⟩ := List.mem_map.mp found
  obtain rfl : p = s.program := same
  exact ((found_iff_wanted shapedInputs shapedTarget).mp (mem_finds_of.mp held)).1

/-- **What synthesis returns is accepted rightly**, at any readings of the
clock. The result is there whenever there are inputs and the limits are valid;
its solutions stand on their own, differ in value, never get smaller along the
list and keep to the limit. -/
theorem synthesize_accepts (readings : Nat → Nat) {problem : Problem} {budgets : Budgets}
    (given : problem.inputs ≠ []) (shapedInputs : ∀ t ∈ problem.inputs, t.Shaped)
    (shapedTarget : problem.target.Shaped) (valid : budgets.validate = .ok ()) :
    ∃ result, synthesize readings problem budgets = .ok result ∧
      (∀ s ∈ result.solutions, Accepted problem budgets s) ∧
      (result.solutions.map fun s => s.program.canonical).Nodup ∧
      (result.solutions.map fun s => s.program.size).Pairwise (· ≤ ·) ∧
      result.solutions.length ≤ budgets.solutionLimit := by
  refine ⟨_, synthesize_eq_ok readings given valid, ?_, ?_, ?_, ?_⟩
  · intro s member
    have wanted := outcome_wanted readings shapedInputs shapedTarget member
    obtain ⟨-, value_eq, aligned⟩ :=
      final_check_eq_some.mp ((outcome_kept readings problem budgets).1 s member)
    exact ⟨wanted.concrete, value_eq, (Table.align_some aligned).1, wanted.configured,
      wanted.admissible, wanted.small⟩
  · exact (outcome_kept readings problem budgets).2
  · have sorted := (finds_sorted shapedInputs shapedTarget budgets.maxSize).sublist
      (outcome_found readings problem budgets)
    rw [List.pairwise_map] at sorted ⊢
    exact sorted
  · have room : Progress.start.solutions.length < budgets.solutionLimit := limit_positive valid
    rw [outcome_solutions]
    exact follow_limit problem readings _ room 0

/-- Two columns whose texts are joined in the target. -/
def joining : Problem where
  inputs := [⟨["a", "b"], [.text, .text], [[.text "x", .text "y"]]⟩]
  target := ⟨["c"], [.text], [[.text "x_y"]]⟩
  config := { Config.standard with operators := [.unite] }

theorem joining_shaped : (∀ t ∈ joining.inputs, t.Shaped) ∧ joining.target.Shaped := by
  refine ⟨?_, rfl, by simp [joining]⟩
  intro t member
  cases List.mem_singleton.mp member
  exact ⟨rfl, by simp⟩

theorem synthesize_accepts_joining :
    (synthesize (fun _ => 0) joining ⟨1, 1, 2⟩).map (·.solutions.map (·.program.steps)) =
        .ok [[⟨.unite, [.column 0, .column 1, .constant (.text "_")]⟩]] ∧
      ∃ result, synthesize (fun _ => 0) joining ⟨1, 1, 2⟩ = .ok result ∧
        (∀ s ∈ result.solutions, Accepted joining ⟨1, 1, 2⟩ s) ∧
        (result.solutions.map fun s => s.program.canonical).Nodup ∧
        (result.solutions.map fun s => s.program.size).Pairwise (· ≤ ·) ∧
        result.solutions.length ≤ 2 :=
  ⟨by decide +kernel, synthesize_accepts (fun _ => 0) (by decide) joining_shaped.1
    joining_shaped.2 rfl⟩

end Reshape.Search
