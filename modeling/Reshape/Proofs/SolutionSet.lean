import Reshape.Proofs.Acceptance

/-! All that there is to find. A run that neither runs out of time nor reaches
its limit accepts every wanted program, or one that is equal to it in value.
Levels, sharing, ruling out and taking each program once lose nothing: the
solutions are what trying all programs would give. -/
namespace Reshape.Search

variable {problem : Problem} {budgets : Budgets}

/-- The final check rejects no wanted program, as the first of its premises is
the target itself. -/
theorem final_check_of_wanted {maxSize : Nat} {p : Program} (wanted : Wanted problem maxSize p) :
    ∃ s, finalCheck problem p = some s := by
  obtain ⟨value, made, included⟩ := wanted.evaluates
  obtain ⟨alignment, aligned⟩ := Option.isSome_iff_exists.mp included
  exact ⟨⟨p, value, alignment⟩, final_check_eq_some.mpr ⟨rfl, made, aligned⟩⟩

/-- Every program seen so far is accepted, or one of equal value. -/
def Covered (p : Progress) : Prop :=
  ∀ c ∈ p.seen, ∃ s ∈ p.solutions, s.program.canonical = c

theorem Covered.unchanged {p q : Progress} (covered : Covered p)
    (solutions : q.solutions = p.solutions) (seen : q.seen = p.seen) : Covered q := by
  rw [Covered, solutions, seen]
  exact covered

theorem Hears.covered {now : Nat} {event : Event} {p : Progress} {after : Progress × Bool}
    (heard : Hears problem budgets now p event after) (covered : Covered p)
    (passes : ∀ program value, event = .found program value →
      ∃ s, finalCheck problem program = some s) :
    Covered after.1 ∧ ∀ program value, event = .found program value →
      ∃ s ∈ after.1.solutions, s.program.canonical = program.canonical := by
  cases heard with
  | fresh unseen solutions seen =>
    rename_i program value q
    obtain ⟨s, checked⟩ := passes program value rfl
    have same : s.program = program := (final_check_eq_some.mp checked).1
    have all : q.solutions = p.solutions ++ [s] := by
      rw [solutions, checked, Option.toList_some]
    have here : ∃ s ∈ q.solutions, s.program.canonical = program.canonical :=
      ⟨s, by simp [all], by rw [same]⟩
    constructor
    · intro c member
      rw [seen] at member
      rcases List.mem_cons.mp member with rfl | old
      · exact here
      · obtain ⟨s', held, equal⟩ := covered c old
        exact ⟨s', by simp [all, held], equal⟩
    · rintro _ _ ⟨⟩
      exact here
  | again known solutions seen =>
    refine ⟨covered.unchanged solutions seen, ?_⟩
    rintro _ _ ⟨⟩
    rw [solutions]
    exact covered _ known
  | late _ solutions seen => exact ⟨covered.unchanged solutions seen, nofun⟩
  | silent quiet _ solutions seen =>
    refine ⟨covered.unchanged solutions seen, ?_⟩
    rintro program value rfl
    cases quiet

/-- A run that nothing ends early accepts every program it hears of, or one of
equal value. -/
theorem follow_covers {readings : Nat → Nat} {events : List Event} {p : Progress} {number : Nat}
    (covered : Covered p)
    (passes : ∀ program value, .found program value ∈ events →
      ∃ s, finalCheck problem program = some s)
    (early : ∀ i : Nat, events[i]? = some .check → readings (number + i) < budgets.timeLimit)
    (unfilled : (follow problem budgets readings number events p).1.solutions.length <
      budgets.solutionLimit)
    {program : Program} {value : Table} (found : .found program value ∈ events) :
    ∃ s ∈ (follow problem budgets readings number events p).1.solutions,
      s.program.canonical = program.canonical := by
  induction events generalizing p number with
  | nil => cases found
  | cons event rest ih =>
    have heard := next_hears problem budgets (readings number) event p
    obtain ⟨still, here⟩ := heard.covered covered fun program value same =>
      passes program value (same ▸ List.mem_cons_self)
    rw [follow] at unfilled ⊢
    split at unfilled
    · rename_i goesOn
      rw [if_pos goesOn]
      obtain ⟨more, grown, -⟩ := follow_grows problem budgets readings rest
        (p.next problem budgets (readings number) event).1 (number + 1)
      rcases List.mem_cons.mp found with same | later
      · obtain ⟨s, held, equal⟩ := here program value same.symm
        exact ⟨s, grown ▸ List.mem_append_left more held, equal⟩
      · refine ih still (fun program value member => ?_) (fun i check => ?_) unfilled later
        · exact passes program value (List.mem_cons_of_mem _ member)
        · have := early (i + 1) check
          rwa [← Nat.add_assoc, Nat.add_right_comm] at this
    · rename_i stopped
      generalize p.next problem budgets (readings number) event = after at heard unfilled stopped
      cases heard with
      | fresh _ _ _ => exact absurd (decide_eq_true unfilled) stopped
      | again _ _ _ | silent _ _ _ _ => exact absurd rfl stopped
      | late expired _ _ => exact absurd (early 0 rfl) (Nat.not_lt.mpr expired)

/-- **The solutions are the wanted programs.** When no check finds the time
expired and the limit is not reached, every solution is wanted, and a program is
among the solutions, up to the value of its constants, just when it is wanted,
up to the value of its constants. -/
theorem synthesize_solves (readings : Nat → Nat) {problem : Problem} {budgets : Budgets}
    (given : problem.inputs ≠ []) (shapedInputs : ∀ t ∈ problem.inputs, t.Shaped)
    (shapedTarget : problem.target.Shaped) (valid : budgets.validate = .ok ())
    (early : ∀ i : Nat, (searchEvents problem budgets.maxSize)[i]? = some .check →
      readings i < budgets.timeLimit) :
    ∃ result, synthesize readings problem budgets = .ok result ∧
      (result.solutions.length < budgets.solutionLimit →
        (∀ s ∈ result.solutions, Wanted problem budgets.maxSize s.program) ∧
        ∀ p : Program, (∃ s ∈ result.solutions, s.program.canonical = p.canonical) ↔
          ∃ q : Program, q.canonical = p.canonical ∧ Wanted problem budgets.maxSize q) := by
  refine ⟨_, synthesize_eq_ok readings given valid, fun unfilled => ?_⟩
  have sound : ∀ s ∈ (outcome readings problem budgets).solutions,
      Wanted problem budgets.maxSize s.program :=
    fun s member => outcome_wanted readings shapedInputs shapedTarget member
  refine ⟨sound, fun p => ⟨?_, ?_⟩⟩
  · rintro ⟨s, member, equal⟩
    exact ⟨s.program, equal, sound s member⟩
  · rintro ⟨q, equal, wanted⟩
    obtain ⟨value, value_eq, -⟩ := wanted.evaluates
    have passes : ∀ program value,
        .found program value ∈ searchEvents problem budgets.maxSize →
          ∃ s, finalCheck problem program = some s := by
      intro program value found
      exact final_check_of_wanted ((found_iff_wanted shapedInputs shapedTarget).mp found).1
    have covered : Covered .start := by simp [Covered, Progress.start]
    have found := (found_iff_wanted shapedInputs shapedTarget).mpr ⟨wanted, value_eq⟩
    rw [outcome_solutions] at unfilled ⊢
    obtain ⟨s, member, same⟩ :=
      follow_covers covered passes (by simpa using early) unfilled found
    exact ⟨s, member, same.trans equal⟩

/-- One program joins the columns, and it is the only one wanted. -/
theorem synthesize_solves_joining :
    ∃ result, synthesize (fun _ => 0) joining ⟨1, 1, 2⟩ = .ok result ∧
      result.solutions.length = 1 ∧
      (∀ s ∈ result.solutions, Wanted joining 1 s.program) ∧
      ∀ p : Program, (∃ s ∈ result.solutions, s.program.canonical = p.canonical) ↔
        ∃ q : Program, q.canonical = p.canonical ∧ Wanted joining 1 q := by
  have valid : Budgets.validate ⟨1, 1, 2⟩ = .ok () := rfl
  obtain ⟨result, ran, solves⟩ := synthesize_solves (fun _ => 0) (by decide) joining_shaped.1
    joining_shaped.2 valid (fun _ _ => Nat.one_pos)
  have single : (synthesize (fun _ => 0) joining ⟨1, 1, 2⟩).map (·.solutions.length) = .ok 1 := by
    decide +kernel
  rw [ran, map_eq_ok] at single
  obtain ⟨_, ⟨⟩, one⟩ := single
  exact ⟨result, ran, one, solves (by rw [one]; exact Nat.one_lt_two)⟩

end Reshape.Search
