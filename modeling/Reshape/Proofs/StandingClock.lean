import Reshape.Proofs.Truncation

/-! What a run owes to its clock. A reading decides whether a check comes too
late, and is otherwise only written down. Times aside, a run in which no check
comes too late is the run under a clock that stands still. -/
namespace Reshape

/-- The report without its times. -/
def Report.untimed (r : Report) : Report :=
  { r with sizes := r.sizes.map fun (size, _) => (size, 0), elapsed := 0 }

/-- The result without its times. -/
def Synthesis.untimed (s : Synthesis) : Synthesis := { s with report := s.report.untimed }

/-- What a search has come to, without times. -/
def Search.Progress.untimed (p : Progress) : Progress :=
  { p with report := p.report.untimed, current := p.current.map fun (size, _) => (size, 0) }

/-- Adding a time writes the same keys as adding none. -/
theorem Ordered.add_untimed {κ : Type} [DecidableEq κ] (key : κ) (n : Nat)
    (entries : List (κ × Nat)) :
    (add key n entries).map (fun (k, _) => (k, 0)) =
      add key 0 (entries.map fun (k, _) => (k, 0)) := by
  unfold add
  induction entries with
  | nil => rfl
  | cons entry rest ih =>
    obtain ⟨k, time⟩ := entry
    simp only [alter, List.map_cons]
    split
    · rfl
    · rw [List.map_cons, ih]

theorem Report.record_untimed (r : Report) (event : Event) :
    (r.record event).untimed = r.untimed.record event := by
  cases event with
  | size size => simp [record, untimed, Ordered.add_untimed]
  | _ => rfl

namespace Search

variable {problem : Problem} {budgets : Budgets} {readings : Nat → Nat}

theorem Progress.settle_untimed (p : Progress) (now : Nat) :
    (p.settle now).untimed = p.untimed.settle 0 := by
  obtain ⟨report, solutions, seen, current⟩ := p
  cases current with
  | none => rfl
  | some begun => simp [settle, untimed, Report.untimed, Ordered.add_untimed]

theorem Progress.finish_untimed (p : Progress) (now : Nat) :
    (p.finish now).untimed = p.untimed.finish 0 := by
  rw [finish, finish, ← settle_untimed p now]
  rfl

/-- An event that is no late check does the same at all times. -/
theorem next_untimed (positive : 0 < budgets.timeLimit) {now : Nat} {event : Event} (p : Progress)
    (early : event = .check → now < budgets.timeLimit) :
    p.untimed.next problem budgets 0 event =
      ((p.next problem budgets now event).1.untimed, (p.next problem budgets now event).2) := by
  have recorded : p.untimed.report.record event = (p.report.record event).untimed :=
    (p.report.record_untimed event).symm
  cases event with
  | size size =>
    have settled := Progress.settle_untimed { p with report := p.report.record (.size size) } now
    simp only [Progress.next, recorded]
    simp only [Progress.untimed] at settled ⊢
    rw [← settled]
    rfl
  | check =>
    simp only [Progress.next, if_neg (Nat.not_le.mpr (early rfl)), if_neg (Nat.not_le.mpr positive),
      recorded]
    rfl
  | found program value =>
    simp only [Progress.next, recorded]
    have seen : p.untimed.seen = p.seen := rfl
    rw [seen]
    split <;> rfl
  | sketches | chains | pruned | tried | refused =>
    simp only [Progress.next, recorded]
    rfl

/-- So does a whole run. -/
theorem follow_untimed (positive : 0 < budgets.timeLimit) {events : List Event} {p : Progress}
    {number : Nat} (inTime : ¬ Late problem budgets readings number events p) (number' : Nat) :
    (follow problem budgets readings number events p).1.untimed =
      (follow problem budgets (fun _ => 0) number' events p.untimed).1 := by
  induction events generalizing p number number' with
  | nil => rfl
  | cons event rest ih =>
    rw [late_cons_iff, not_or, not_and, not_and] at inTime
    have heard : p.untimed.next problem budgets 0 event =
        ((p.next problem budgets (readings number) event).1.untimed,
          (p.next problem budgets (readings number) event).2) :=
      next_untimed positive p fun check => Nat.not_le.mp (inTime.1 check)
    rw [follow, follow, heard]
    dsimp only
    split
    · rename_i goesOn
      exact ih (inTime.2 goesOn) _
    · rfl

/-- **A run in time owes nothing to its clock** but the times in its report. -/
theorem outcome_untimed (valid : budgets.validate = .ok ())
    (inTime : ¬ Expires readings problem budgets) :
    (outcome readings problem budgets).untimed = outcome (fun _ => 0) problem budgets := by
  have positive : 0 < budgets.timeLimit := time_positive valid
  have started : Progress.start.untimed = Progress.start := rfl
  have same := follow_untimed positive inTime 0
  rw [started] at same
  simp only [outcome, Progress.finish_untimed, same]

end Search
end Reshape
