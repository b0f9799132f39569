import Reshape.Proofs.Application
import Reshape.Proofs.SearchEvents

/-! A run without its monads. A run hears the events of its search one after the
other, each with a reading of the clock, and stops where an event tells it to.
What it has accepted and seen by then changes in one way only: by a program
that is found for the first time. -/
namespace Reshape.Search

/-- What a run comes to that hears these events from a state on, the next
reading being the one of this number; and the number of the reading after the
last one it took. -/
def follow (problem : Problem) (budgets : Budgets) (readings : Nat → Nat) :
    (number : Nat) → List Event → Progress → Progress × Nat
  | number, [], p => (p, number)
  | number, event :: rest, p =>
    if (p.next problem budgets (readings number) event).2 then
      follow problem budgets readings (number + 1) rest
        (p.next problem budgets (readings number) event).1
    else ((p.next problem budgets (readings number) event).1, number + 1)

/-- The result of a run. -/
def outcome (readings : Nat → Nat) (problem : Problem) (budgets : Budgets) : Synthesis :=
  let (p, number) := follow problem budgets readings 0 (searchEvents problem budgets.maxSize) .start
  p.finish (readings number)

theorem listen_run (readings : Nat → Nat) (problem : Problem) (budgets : Budgets) (event : Event)
    (p : Progress) (number : Nat) :
    ((listen (readingClock readings) (fun _ => pure ()) problem budgets event).run.run p).run
        number =
      ((if (p.next problem budgets (readings number) event).2 then .ok () else .error (),
        (p.next problem budgets (readings number) event).1), number + 1) := by
  let after := p.next problem budgets (readings number) event
  let rest : ExceptT Unit (StateT Progress (StateM Nat)) Unit :=
    if !after.2 then throw () else pure ()
  show (rest.run.run after.1).run (number + 1) = _
  cases goesOn : after.2 with
  | true =>
    rw [show rest = pure () by simp [rest, goesOn]]
    rfl
  | false =>
    rw [show rest = throw () by simp [rest, goesOn]]
    rfl

theorem listen_follow (readings : Nat → Nat) (problem : Problem) (budgets : Budgets)
    (events : List Event) (p : Progress) (number : Nat) : ∃ ending,
    ((events.forM (listen (readingClock readings) (fun _ => pure ()) problem budgets)).run.run
      p).run number =
        ((ending, (follow problem budgets readings number events p).1),
          (follow problem budgets readings number events p).2) := by
  induction events generalizing p number with
  | nil => exact ⟨.ok (), rfl⟩
  | cons event rest ih =>
    rw [List.forM_eq_forM, List.forM_cons, ExceptT.run_bind, StateT.run_bind, StateT.run_bind,
      listen_run, follow]
    cases (p.next problem budgets (readings number) event).2 with
    | true => exact ih _ _
    | false => exact ⟨.error (), rfl⟩

/-- **Synthesis is the outcome of a run**, once the problem and the limits are
valid. -/
theorem synthesize_eq (readings : Nat → Nat) (problem : Problem) (budgets : Budgets) :
    synthesize readings problem budgets =
      (validate problem budgets).map fun _ => outcome readings problem budgets := by
  obtain ⟨ending, ran⟩ := listen_follow readings problem budgets
    (searchEvents problem budgets.maxSize) .start 0
  have result : ((run (readingClock readings) (fun _ => pure ()) problem budgets).run 0).1 =
      outcome readings problem budgets := by
    rw [run, search_eq_events, StateT.run_bind, ran]
    rfl
  rw [synthesize, result]
  rfl

/-- What an event can do to the accepted and the seen programs: a program found
for the first time is seen from then on and accepted if it stands the final
check, and nothing else changes them. The run ends with a check that comes too
late, and with a program that makes enough of them. -/
inductive Hears (problem : Problem) (budgets : Budgets) (now : Nat) (p : Progress) :
    Event → Progress × Bool → Prop where
  | fresh {program : Program} {value : Table} {q : Progress} (unseen : program.canonical ∉ p.seen)
      (solutions : q.solutions = p.solutions ++ (finalCheck problem program).toList)
      (seen : q.seen = program.canonical :: p.seen) :
      Hears problem budgets now p (.found program value)
        (q, decide (q.solutions.length < budgets.solutionLimit))
  | again {program : Program} {value : Table} {q : Progress} (known : program.canonical ∈ p.seen)
      (solutions : q.solutions = p.solutions) (seen : q.seen = p.seen) :
      Hears problem budgets now p (.found program value) (q, true)
  | late {q : Progress} (expired : budgets.timeLimit ≤ now) (solutions : q.solutions = p.solutions)
      (seen : q.seen = p.seen) : Hears problem budgets now p .check (q, false)
  | silent {event : Event} {q : Progress} (quiet : findsOf [event] = [])
      (early : event = .check → now < budgets.timeLimit) (solutions : q.solutions = p.solutions)
      (seen : q.seen = p.seen) : Hears problem budgets now p event (q, true)

theorem settle_solutions (p : Progress) (now : Nat) : (p.settle now).solutions = p.solutions := by
  rw [Progress.settle]
  split <;> rfl

theorem settle_seen (p : Progress) (now : Nat) : (p.settle now).seen = p.seen := by
  rw [Progress.settle]
  split <;> rfl

/-- That is all an event can do. -/
theorem next_hears (problem : Problem) (budgets : Budgets) (now : Nat) (event : Event)
    (p : Progress) : Hears problem budgets now p event (p.next problem budgets now event) := by
  cases event with
  | found program value =>
    by_cases known : program.canonical ∈ p.seen
    · simp only [Progress.next, known, if_true]
      exact .again known rfl rfl
    · simp only [Progress.next, known, if_false]
      exact .fresh known rfl rfl
  | check =>
    by_cases expired : budgets.timeLimit ≤ now
    · simp only [Progress.next, expired, if_true]
      exact .late expired rfl rfl
    · simp only [Progress.next, expired, if_false]
      exact .silent rfl (fun _ => Nat.lt_of_not_le expired) rfl rfl
  | size size => exact .silent rfl nofun (settle_solutions _ now) (settle_seen _ now)
  | _ => exact .silent rfl nofun rfl rfl

end Reshape.Search
