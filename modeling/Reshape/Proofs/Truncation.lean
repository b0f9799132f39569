import Reshape.Proofs.Acceptance

/-! Limits only cut a search short. What the events of a search are worth is
fixed before anyone listens: the programs found, each value taken once, as far
as they stand the final check. A run accepts a first part of that, whatever the
clock shows and wherever it ends, and a search of larger programs adds to it at
the end. -/
namespace Reshape.Search

variable {problem : Problem} {budgets : Budgets} {readings : Nat → Nat}

/-- The solutions in a list of events for one who has seen some programs
before. -/
def accepts (problem : Problem) (seen : List Program) (events : List Event) : List Solution :=
  ((firstsBy Program.canonical ((findsOf events).map Prod.fst)).filter
    (·.canonical ∉ seen)).filterMap (finalCheck problem)

/-- All solutions up to a size. -/
def solutionsUpTo (problem : Problem) (maxSize : Nat) : List Solution :=
  accepts problem [] (searchEvents problem maxSize)

theorem accepts_quiet {event : Event} (quiet : findsOf [event] = []) (seen : List Program)
    (rest : List Event) : accepts problem seen (event :: rest) = accepts problem seen rest := by
  rw [accepts, finds_of_cons, quiet, List.nil_append, accepts]

theorem accepts_found (program : Program) (value : Table) (seen : List Program)
    (rest : List Event) :
    accepts problem seen (.found program value :: rest) =
      if program.canonical ∈ seen then accepts problem seen rest
      else (finalCheck problem program).toList ++
        accepts problem (program.canonical :: seen) rest := by
  have finds : (findsOf (.found program value :: rest)).map Prod.fst =
      program :: (findsOf rest).map Prod.fst := rfl
  rw [accepts, finds, firstsBy]
  split
  · rename_i known
    rw [List.filter_cons_of_neg (by simpa using known), List.filter_filter, accepts]
    congr 2
    funext p
    have : p.canonical ∉ seen → p.canonical ≠ program.canonical :=
      fun unseen same => unseen (same ▸ known)
    simpa using this
  · rename_i unseen
    rw [List.filter_cons_of_pos (by simpa using unseen), List.filter_filter,
      List.filterMap_cons, accepts]
    have both : (fun p : Program => decide (p.canonical ∉ seen) &&
        decide (p.canonical ≠ program.canonical)) =
          fun p => decide (p.canonical ∉ program.canonical :: seen) := by
      funext p
      simp [not_or, Bool.and_comm]
    rw [both]
    cases finalCheck problem program <;> rfl

/-- An event makes no difference to what was accepted followed by what there is
left to accept. -/
theorem Hears.conserves {now : Nat} {event : Event} {p : Progress} {after : Progress × Bool}
    (heard : Hears problem budgets now p event after) (rest : List Event) :
    after.1.solutions ++ accepts problem after.1.seen rest =
      p.solutions ++ accepts problem p.seen (event :: rest) := by
  cases heard with
  | fresh unseen solutions seen =>
    rw [solutions, seen, accepts_found, if_neg unseen, List.append_assoc]
  | again known solutions seen => rw [solutions, seen, accepts_found, if_pos known]
  | late _ solutions seen => rw [solutions, seen, accepts_quiet rfl]
  | silent quiet _ solutions seen => rw [solutions, seen, accepts_quiet quiet]

/-- Whenever a run ends, it has accepted a first part of all there is to
accept. -/
theorem follow_accepts_first (problem : Problem) (budgets : Budgets) (readings : Nat → Nat)
    (events : List Event) (p : Progress) (number : Nat) :
    (follow problem budgets readings number events p).1.solutions <+:
      p.solutions ++ accepts problem p.seen events := by
  induction events generalizing p number with
  | nil => exact List.prefix_append _ _
  | cons event rest ih =>
    rw [follow, ← (next_hears problem budgets (readings number) event p).conserves rest]
    split
    · exact ih _ _
    · exact List.prefix_append _ _

/-- Whether a run that hears these events from a state on reaches a check that
comes too late. The run takes one reading for each event that it hears. -/
def Late (problem : Problem) (budgets : Budgets) (readings : Nat → Nat) (number : Nat)
    (events : List Event) (p : Progress) : Prop :=
  ∃ i, number + i < (follow problem budgets readings number events p).2 ∧
    events[i]? = some .check ∧ budgets.timeLimit ≤ readings (number + i)

theorem follow_number_le (problem : Problem) (budgets : Budgets) (readings : Nat → Nat)
    (events : List Event) (p : Progress) (number : Nat) :
    number ≤ (follow problem budgets readings number events p).2 := by
  induction events generalizing p number with
  | nil => exact le_rfl
  | cons event rest ih =>
    rw [follow]
    split
    · exact (Nat.le_succ number).trans (ih _ _)
    · exact Nat.le_succ number

/-- A late check is the first event or comes later in a run that goes on. -/
theorem late_cons_iff {event : Event} {rest : List Event} {p : Progress} {number : Nat} :
    Late problem budgets readings number (event :: rest) p ↔
      (event = .check ∧ budgets.timeLimit ≤ readings number) ∨
        (p.next problem budgets (readings number) event).2 = true ∧
          Late problem budgets readings (number + 1) rest
            (p.next problem budgets (readings number) event).1 := by
  rw [Late, follow]
  split
  · rename_i goesOn
    have bound := follow_number_le problem budgets readings rest
      (p.next problem budgets (readings number) event).1 (number + 1)
    constructor
    · rintro ⟨i, inside, check, expired⟩
      cases i with
      | zero => exact .inl ⟨Option.some.inj check, expired⟩
      | succ i =>
        rw [Nat.add_comm i, ← Nat.add_assoc] at inside expired
        exact .inr ⟨goesOn, i, inside, check, expired⟩
    · rintro (⟨rfl, expired⟩ | ⟨-, i, inside, check, expired⟩)
      · exact ⟨0, bound, rfl, expired⟩
      · rw [Nat.add_assoc, Nat.add_comm 1] at inside expired
        exact ⟨i + 1, inside, check, expired⟩
  · rename_i stopped
    constructor
    · rintro ⟨i, inside, check, expired⟩
      obtain rfl : i = 0 := by omega
      exact .inl ⟨Option.some.inj check, expired⟩
    · rintro (⟨rfl, expired⟩ | ⟨goesOn, -⟩)
      · exact ⟨0, Nat.lt_succ_self _, rfl, expired⟩
      · exact absurd goesOn stopped

/-- A run that reaches no late check accepts all there is to accept, as far as
the limit allows. -/
theorem follow_in_time {events : List Event} {p : Progress} {number : Nat}
    (room : p.solutions.length < budgets.solutionLimit)
    (inTime : ¬ Late problem budgets readings number events p) :
    (follow problem budgets readings number events p).1.solutions =
      (p.solutions ++ accepts problem p.seen events).take budgets.solutionLimit := by
  induction events generalizing p number with
  | nil =>
    rw [follow, accepts, findsOf, List.filterMap_nil, List.map_nil, firstsBy, List.filter_nil,
      List.filterMap_nil, List.append_nil, List.take_of_length_le room.le]
  | cons event rest ih =>
    have heard := next_hears problem budgets (readings number) event p
    rw [late_cons_iff, not_or, not_and, not_and] at inTime
    rw [follow, ← heard.conserves rest]
    split
    · rename_i goesOn
      exact ih (heard.room room goesOn) (inTime.2 goesOn)
    · rename_i stopped
      -- As no check is late, it is the limit that ends the run.
      generalize p.next problem budgets (readings number) event = after at heard stopped
      obtain ⟨more, grown, single, -⟩ := heard.grows
      cases heard with
      | fresh _ _ _ =>
        rw [decide_eq_true_eq, Nat.not_lt] at stopped
        rw [List.take_append_of_le_length stopped, List.take_of_length_le]
        rw [grown, List.length_append]
        omega
      | again _ _ _ | silent _ _ _ _ => exact absurd rfl stopped
      | late expired _ _ => exact absurd expired (inTime.1 rfl)

theorem settle_timed_out (p : Progress) (now : Nat) :
    (p.settle now).report.timedOut = p.report.timedOut := by
  rw [Progress.settle]
  split <;> rfl

theorem record_timed_out (r : Report) (event : Event) :
    (r.record event).timedOut = r.timedOut := by
  cases event <;> rfl

/-- An event reports that the time is up if it is a check that comes too
late. -/
theorem next_timed_out (problem : Problem) (budgets : Budgets) (now : Nat) (event : Event)
    (p : Progress) : (p.next problem budgets now event).1.report.timedOut = true ↔
      p.report.timedOut = true ∨ event = .check ∧ budgets.timeLimit ≤ now := by
  cases event with
  | found program value =>
    rw [Progress.next]
    split
    · simp [record_timed_out]
    · simp [Progress.take, record_timed_out]
  | check =>
    by_cases expired : budgets.timeLimit ≤ now
    · simp [Progress.next, expired]
    · simp [Progress.next, expired, record_timed_out]
  | size size => simp [Progress.next, settle_timed_out, record_timed_out]
  | _ => simp [Progress.next, record_timed_out]

theorem follow_timed_out (events : List Event) (p : Progress) (number : Nat) :
    (follow problem budgets readings number events p).1.report.timedOut = true ↔
      p.report.timedOut = true ∨ Late problem budgets readings number events p := by
  induction events generalizing p number with
  | nil =>
    have onTime : ¬ Late problem budgets readings number [] p := by
      rintro ⟨i, -, check, -⟩
      cases check
    rw [follow, or_iff_left onTime]
  | cons event rest ih =>
    rw [late_cons_iff, follow, ← or_assoc,
      ← next_timed_out problem budgets (readings number) event p]
    split
    · rename_i goesOn
      rw [ih, and_iff_right goesOn]
    · rename_i stopped
      rw [or_iff_left fun late => stopped late.1]

/-- What is found behind an event that finds nothing is found later. -/
theorem found_behind {event : Event} {rest : List Event} {p : Program} {value : Table}
    (quiet : findsOf [event] = []) (found : .found p value ∈ event :: rest) :
    .found p value ∈ rest := by
  rw [← mem_finds_of, finds_of_cons, quiet, List.nil_append] at found
  exact mem_finds_of.mp found

/-- What a step finds is found once all its arguments are filled in. -/
theorem found_after_fill {config : Config} {below : Table} {next : Step → List Event}
    {p : Program} {value : Table} {left position : Nat} {step : Step}
    (found : .found p value ∈ fillEvents config below next left position step) :
    ∃ filled, .found p value ∈ next filled := by
  induction left generalizing position step with
  | zero => exact ⟨step, found_behind rfl found⟩
  | succ left ih =>
    replace found := found_behind rfl found
    split at found
    · split at found
      · cases found
      · obtain ⟨value, -, found⟩ := List.mem_flatMap.mp found
        exact ih found
    · exact ih found

/-- Whatever each step of an ascent keeps, from one depth to the next, holds of what is found
at its end. -/
theorem found_of_ascend {config : Config} {chain : Chain} {input : Nat}
    (holds : (depth : Nat) → List Step → Table → Prop)
    (keeps : ∀ {depth done below step out}, holds (depth + 1) done below →
      step.apply below = .ok out → chain.holdsAt depth out = true → holds depth (step :: done) out)
    {inward done : List Step} {below : Table} (start : holds inward.length done below)
    {p : Program} {value : Table}
    (found : .found p value ∈ ascendEvents config chain input inward done below) :
    p.input = input ∧ holds 0 p.steps value := by
  induction inward generalizing done below with
  | nil =>
    cases List.mem_singleton.mp found
    exact ⟨rfl, start⟩
  | cons step above ih =>
    rw [ascendEvents] at found
    obtain ⟨filled, found⟩ := found_after_fill found
    split at found
    · cases List.mem_singleton.mp found
    · replace found := found_behind rfl found
      split at found
      · cases List.mem_singleton.mp found
      · rename_i out ran
        split at found
        · rename_i met
          exact ih (keeps start ran met) found
        · cases List.mem_singleton.mp found

/-- The same of filling a sketch, which starts from an input that meets its premise. -/
theorem found_of_instantiate {inputs : List Table} {config : Config} {chain : Chain}
    {sketch : Program} (holds : (depth : Nat) → List Step → Table → Prop)
    (keeps : ∀ {depth done below step out}, holds (depth + 1) done below →
      step.apply below = .ok out → chain.holdsAt depth out = true → holds depth (step :: done) out)
    (start : ∀ t, inputs[sketch.input]? = some t → chain.holdsAt sketch.size t = true →
      holds sketch.size [] t)
    {p : Program} {value : Table}
    (found : .found p value ∈ instantiateEvents inputs config chain sketch) :
    p.input = sketch.input ∧ holds 0 p.steps value := by
  rw [instantiateEvents] at found
  split at found
  · cases found
  · rename_i t given
    split at found
    · rename_i met
      refine found_of_ascend holds keeps ?_ found
      rw [List.length_reverse]
      exact start t given met
    · cases List.mem_singleton.mp found

/-- The programs of a size are found by filling its sketches along their chains. -/
theorem found_of_size {size : Nat} {p : Program} {value : Table}
    (found : .found p value ∈ sizeEvents problem size) :
    ∃ sketch ∈ admittedOf problem size,
      ∃ chain ∈ (Premises.build sketch.operators problem.target).chains,
        .found p value ∈ instantiateEvents problem.inputs problem.config
          (chain.map Obligation.target) sketch := by
  replace found := found_behind rfl (found_behind rfl found)
  obtain ⟨sketch, admitted, found⟩ := List.mem_flatMap.mp found
  obtain ⟨chain, chained, found⟩ := List.mem_flatMap.mp (found_behind rfl found)
  exact ⟨sketch, admitted, chain, chained, found_behind rfl found⟩

/-- The programs found among those of a size have that size. -/
theorem found_size {size : Nat} {p : Program} {value : Table}
    (found : .found p value ∈ sizeEvents problem size) : p.size = size := by
  obtain ⟨sketch, admitted, chain, -, found⟩ := found_of_size found
  obtain ⟨operators, input, -, length, -, rfl⟩ := mem_sketches_of.mp (List.mem_filter.mp admitted).1
  have sized : (Program.sketch operators input).size = size := by
    rw [Program.size, Program.sketch, List.length_map, length]
  -- Each step leaves as many steps done and to come as there were before it.
  refine (Nat.zero_add _).symm.trans
    (found_of_instantiate (fun depth done _ => depth + done.length = size) ?_ ?_ found).2
  · intro depth done below step out sum _ _
    rw [List.length_cons]
    omega
  · exact fun _ _ _ => sized

/-- The programs of a search stay within its size. -/
theorem found_within {maxSize : Nat} {p : Program} {value : Table}
    (found : .found p value ∈ searchEvents problem maxSize) : p.size ≤ maxSize := by
  obtain ⟨size, inside, found⟩ := List.mem_flatMap.mp found
  rw [found_size found]
  exact Nat.lt_succ_iff.mp (List.mem_range.mp inside)

/-- A search of larger programs goes on where a smaller one ends. -/
theorem search_events_append (problem : Problem) {size larger : Nat} (le : size ≤ larger) :
    ∃ more, searchEvents problem larger = searchEvents problem size ++ more ∧
      ∀ p value, .found p value ∈ more → size < p.size := by
  have sizes : larger + 1 = size + 1 + (larger - size) := by omega
  refine ⟨_, by rw [searchEvents, sizes, List.range_add, List.flatMap_append]; rfl, ?_⟩
  intro p value found
  obtain ⟨size', held, found⟩ := List.mem_flatMap.mp found
  obtain ⟨beyond, -, rfl⟩ := List.mem_map.mp held
  rw [found_size found]
  omega

theorem accepts_append (problem : Problem) (seen : List Program) (events more : List Event) :
    ∃ later, accepts problem seen (events ++ more) = accepts problem seen events ++ later ∧
      ∀ s ∈ later, ∃ value, .found s.program value ∈ more := by
  rw [accepts, finds_of_append, List.map_append, firsts_by_append, List.filter_append,
    List.filterMap_append]
  refine ⟨_, rfl, fun s member => ?_⟩
  obtain ⟨p, held, checked⟩ := List.mem_filterMap.mp member
  rw [(final_check_eq_some.mp checked).1]
  have first := List.mem_of_mem_filter (List.mem_of_mem_filter held)
  obtain ⟨⟨_, value⟩, found, rfl⟩ := List.mem_map.mp (mem_firsts_by first)
  exact ⟨value, mem_finds_of.mp found⟩

theorem found_of_accepts {seen : List Program} {events : List Event} {s : Solution}
    (member : s ∈ accepts problem seen events) : ∃ value, .found s.program value ∈ events := by
  obtain ⟨later, all, found⟩ := accepts_append problem seen [] events
  have none : accepts problem seen [] = [] := rfl
  rw [none, List.nil_append, List.nil_append] at all
  exact found s (all ▸ member)

theorem solutions_up_to_small {maxSize : Nat} {s : Solution}
    (member : s ∈ solutionsUpTo problem maxSize) : s.program.size ≤ maxSize := by
  obtain ⟨value, found⟩ := found_of_accepts member
  exact found_within found

/-- Larger programs are accepted behind all those up to a size. -/
theorem solutions_up_to_append (problem : Problem) {size larger : Nat} (le : size ≤ larger) :
    ∃ later, solutionsUpTo problem larger = solutionsUpTo problem size ++ later ∧
      ∀ s ∈ later, size < s.program.size := by
  obtain ⟨more, events, beyond⟩ := search_events_append problem le
  obtain ⟨later, all, found⟩ := accepts_append problem [] (searchEvents problem size) more
  refine ⟨later, by rw [solutionsUpTo, solutionsUpTo, events, all], fun s member => ?_⟩
  obtain ⟨value, found⟩ := found s member
  exact beyond _ _ found

/-- The solutions up to a size are the first ones of those up to a larger size,
and all of them that are small enough. -/
theorem solutions_up_to_of_le (problem : Problem) {size larger : Nat} (le : size ≤ larger) :
    solutionsUpTo problem size <+: solutionsUpTo problem larger ∧
      (solutionsUpTo problem larger).filter (·.program.size ≤ size) =
        solutionsUpTo problem size := by
  obtain ⟨later, all, beyond⟩ := solutions_up_to_append problem le
  rw [all]
  refine ⟨List.prefix_append _ _, ?_⟩
  have small : (solutionsUpTo problem size).filter (·.program.size ≤ size) =
      solutionsUpTo problem size :=
    List.filter_eq_self.mpr fun s member => decide_eq_true (solutions_up_to_small member)
  have large : later.filter (·.program.size ≤ size) = [] :=
    List.filter_eq_nil_iff.mpr fun s member => by simpa using beyond s member
  rw [List.filter_append, small, large, List.append_nil]

/-- Whether a deadline check of a run answers that the time is up. -/
def Expires (readings : Nat → Nat) (problem : Problem) (budgets : Budgets) : Prop :=
  Late problem budgets readings 0 (searchEvents problem budgets.maxSize) .start

/-- No check of a run expires under a clock that stays below the time limit. -/
theorem not_expires_of_early (early : ∀ number, readings number < budgets.timeLimit)
    (problem : Problem) : ¬ Expires readings problem budgets := by
  rintro ⟨_, -, -, expired⟩
  exact Nat.not_lt.mpr expired (early _)

theorem outcome_accepts_first (readings : Nat → Nat) (problem : Problem) (budgets : Budgets) :
    (outcome readings problem budgets).solutions <+: solutionsUpTo problem budgets.maxSize := by
  rw [outcome_solutions]
  exact follow_accepts_first problem budgets readings _ .start 0

theorem outcome_in_time (valid : budgets.validate = .ok ())
    (inTime : ¬ Expires readings problem budgets) :
    (outcome readings problem budgets).solutions =
      (solutionsUpTo problem budgets.maxSize).take budgets.solutionLimit := by
  have room : Progress.start.solutions.length < budgets.solutionLimit := limit_positive valid
  rw [outcome_solutions]
  exact follow_in_time room inTime

/-- A run that nothing ends early accepts all solutions up to its size. -/
theorem outcome_complete (valid : budgets.validate = .ok ())
    (inTime : ¬ Expires readings problem budgets)
    (unfilled : (outcome readings problem budgets).solutions.length < budgets.solutionLimit) :
    (outcome readings problem budgets).solutions = solutionsUpTo problem budgets.maxSize := by
  have first := outcome_in_time valid inTime
  rw [first, List.length_take] at unfilled
  rw [first, List.take_of_length_le (by omega)]

theorem outcome_timed_out (readings : Nat → Nat) (problem : Problem) (budgets : Budgets) :
    (outcome readings problem budgets).report.timedOut = true ↔
      Expires readings problem budgets := by
  have started : Progress.start.report.timedOut = false := rfl
  have settled (p : Progress) (now : Nat) :
      (p.finish now).report.timedOut = p.report.timedOut := settle_timed_out p now
  rw [outcome, settled, follow_timed_out, started, or_iff_right Bool.false_ne_true, Expires]

/-- **Limits only cut short.** A run with any limits and any readings of the
clock accepts the first solutions of a run on the same problem that looks at
programs as large or larger and that nothing ends early. If none of its checks
comes too late, it accepts the first ones of at most its size, as many as it
may. And it reports that the time is up just when one of its checks says so. -/
theorem synthesize_truncates (readings readings' : Nat → Nat) {problem : Problem}
    {budgets budgets' : Budgets} (given : problem.inputs ≠ [])
    (valid : budgets.validate = .ok ()) (valid' : budgets'.validate = .ok ())
    (smaller : budgets.maxSize ≤ budgets'.maxSize)
    (inTime : ¬ Expires readings' problem budgets') :
    ∃ result full, synthesize readings problem budgets = .ok result ∧
      synthesize readings' problem budgets' = .ok full ∧
      (result.report.timedOut = true ↔ Expires readings problem budgets) ∧
      (full.solutions.length < budgets'.solutionLimit →
        result.solutions <+: full.solutions ∧
        (¬ Expires readings problem budgets → result.solutions =
          (full.solutions.filter (·.program.size ≤ budgets.maxSize)).take
            budgets.solutionLimit)) := by
  refine ⟨_, _, synthesize_eq_ok readings given valid, synthesize_eq_ok readings' given valid',
    outcome_timed_out readings problem budgets, fun unfilled => ?_⟩
  obtain ⟨first, small⟩ := solutions_up_to_of_le problem smaller
  rw [outcome_complete valid' inTime unfilled]
  constructor
  · exact (outcome_accepts_first readings problem budgets).trans first
  · intro onTime
    rw [small, outcome_in_time valid onTime]

/-- Two columns of zeros, which their running totals repeat. -/
def zeros : Problem where
  inputs := [⟨["a"], [.number], [[.number 0], [.number 0]]⟩,
    ⟨["b"], [.number], [[.number 0], [.number 0]]⟩]
  target := ⟨["x"], [.number], [[.number 0], [.number 0]]⟩
  config := { Config.standard with operators := [.cumsum] }

/-- Of the inputs and their running totals, a run that stops at one program and
looks at no operator accepts the first. -/
theorem synthesize_truncates_zeros :
    ∃ result full, synthesize (fun _ => 0) zeros ⟨0, 1, 1⟩ = .ok result ∧
      synthesize (fun _ => 0) zeros ⟨1, 1, 9⟩ = .ok full ∧ full.solutions.length = 4 ∧
      result.report.timedOut = false ∧ result.solutions <+: full.solutions ∧
      result.solutions = (full.solutions.filter (·.program.size ≤ 0)).take 1 := by
  have inTime (budgets : Budgets) (positive : 0 < budgets.timeLimit) :
      ¬ Expires (fun _ => 0) zeros budgets := not_expires_of_early (fun _ => positive) zeros
  have given : zeros.inputs ≠ [] := by decide
  have valid : Budgets.validate ⟨0, 1, 1⟩ = .ok () := rfl
  have valid' : Budgets.validate ⟨1, 1, 9⟩ = .ok () := rfl
  obtain ⟨result, full, ran, ranFull, timed, cut⟩ := synthesize_truncates (fun _ => 0)
    (fun _ => 0) given valid valid' (Nat.zero_le _) (inTime _ Nat.one_pos)
  have four : (synthesize (fun _ => 0) zeros ⟨1, 1, 9⟩).map (·.solutions.length) = .ok 4 := by
    decide +kernel
  rw [ranFull, map_eq_ok] at four
  obtain ⟨_, ⟨⟩, count⟩ := four
  obtain ⟨first, exact⟩ := cut (by rw [count]; decide)
  refine ⟨result, full, ran, ranFull, count, ?_, first, exact (inTime _ Nat.one_pos)⟩
  rw [← Bool.not_eq_true, timed]
  exact inTime _ Nat.one_pos

end Reshape.Search
