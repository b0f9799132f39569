import Reshape.Proofs.DomainSoundness
import Reshape.Proofs.Records
import Reshape.Proofs.Run

/-! Which operators a search counts as inapplicable. It draws the arguments of
every step it applies from domains, so a step that is refused spreads. The
report counts refusals and nothing else under that heading. -/
namespace Reshape

namespace Search

section Events

variable {config : Config} {below : Table} {op : Operator} {next : Step → List Event}
  {event : Event}

/-- While a sketched step is filled, its arguments are drawn; whatever is not a
check comes after all of them. -/
theorem fill_drawn {given : List Argument} (drawn : Drawing config below op given) {left : Nat}
    (total : given.length + left = op.arity)
    (member : event ∈ fillEvents config below next left (given.length + 1)
      ⟨op, given ++ List.replicate left .hole⟩) :
    event = .check ∨ ∃ arguments, Drawing config below op arguments ∧
      arguments.length = op.arity ∧ event ∈ next ⟨op, arguments⟩ := by
  induction left generalizing given with
  | zero =>
    rw [List.replicate_zero, List.append_nil] at member
    rcases List.mem_cons.mp member with check | later
    · exact .inl check
    · exact .inr ⟨given, drawn, total, later⟩
  | succ left ih =>
    rw [fillEvents, if_pos (Step.first_hole given left)] at member
    rcases List.mem_cons.mp member with check | later
    · exact .inl check
    · split at later
      · cases later
      · rename_i values offered
        obtain ⟨value, taken, later⟩ := List.mem_flatMap.mp later
        rw [Step.fill_first_hole] at later
        have holes : op.arity - given.length = left + 1 := by omega
        have drawn' := drawn.next (by omega) (holes ▸ offered) taken
        refine ih drawn' ?_ ?_
        · simp only [List.length_append, List.length_singleton]
          omega
        · simpa using later

/-- Filling sketched steps refuses no operator but spreading. -/
theorem refused_of_ascend {chain : Chain} {input : Nat} {operators : List Operator}
    {done : List Step} {refused : Operator}
    (member : .refused refused ∈
      ascendEvents config chain input (operators.map Step.sketch) done below) :
    refused = .spread := by
  induction operators generalizing done below with
  | nil => simp [ascendEvents] at member
  | cons op above ih =>
    rw [List.map_cons, ascendEvents] at member
    rcases fill_drawn .nothing (Nat.zero_add _) member with check | ⟨arguments, drawn, total, later⟩
    · cases check
    · split at later
      · simp at later
      · rcases List.mem_cons.mp later with tried | later
        · cases tried
        · split at later
          · rename_i failure failed
            rcases drawn.suited.apply_ok total with ⟨out, made⟩ | ⟨spreads, -⟩
            · rw [made] at failed
              cases failed
            · cases List.mem_singleton.mp later
              exact spreads
          · split at later
            · exact ih later
            · simp at later

theorem refused_of_search {problem : Problem} {maxSize : Nat} {refused : Operator}
    (member : .refused refused ∈ searchEvents problem maxSize) : refused = .spread := by
  obtain ⟨size, -, member⟩ := List.mem_flatMap.mp member
  simp only [sizeEvents, List.mem_cons, reduceCtorEq, false_or, List.mem_flatMap] at member
  obtain ⟨sketch, admitted, member⟩ := member
  obtain ⟨operators, input, -, -, -, rfl⟩ := mem_sketches_of.mp (List.mem_filter.mp admitted).1
  simp only [sketchEvents, List.mem_cons, reduceCtorEq, false_or, List.mem_flatMap] at member
  obtain ⟨chain, -, member⟩ := member
  rw [instantiateEvents] at member
  split at member
  · cases member
  · split at member
    · rw [Program.sketch, ← List.map_reverse] at member
      exact refused_of_ascend member
    · simp at member

end Events

/-- What an event adds to the operators that are counted as inapplicable. -/
theorem counted_of_next {problem : Problem} {budgets : Budgets} {now : Nat} {event : Event}
    {p : Progress} {op : Operator}
    (counted : op ∈ Ordered.keys (p.next problem budgets now event).1.report.inapplicable) :
    op ∈ Ordered.keys p.report.inapplicable ∨ event = .refused op := by
  cases event with
  | refused other =>
    rcases Ordered.mem_keys_alter.mp counted with rfl | before
    · exact .inr rfl
    · exact .inl before
  | size size =>
    simp only [Progress.next, Progress.settle] at counted
    split at counted <;> exact .inl counted
  | check | found =>
    simp only [Progress.next] at counted
    split at counted <;> exact .inl counted
  | sketches | chains | pruned | tried => exact .inl counted

/-- A run counts an operator as inapplicable only where it hears of a refusal. -/
theorem counted_of_follow {problem : Problem} {budgets : Budgets} {readings : Nat → Nat}
    {events : List Event} {number : Nat} {p : Progress} {op : Operator}
    (counted : op ∈
      Ordered.keys (follow problem budgets readings number events p).1.report.inapplicable) :
    op ∈ Ordered.keys p.report.inapplicable ∨ .refused op ∈ events := by
  induction events generalizing number p with
  | nil => exact .inl counted
  | cons event rest ih =>
    have step {p' : Progress} (before : op ∈ Ordered.keys p'.report.inapplicable)
        (heard : p' = (p.next problem budgets (readings number) event).1) :
        op ∈ Ordered.keys p.report.inapplicable ∨ .refused op ∈ event :: rest := by
      subst heard
      exact (counted_of_next before).imp_right fun (here : event = .refused op) =>
        here ▸ List.mem_cons_self
    rw [follow] at counted
    split at counted
    · rcases ih counted with before | later
      · exact step before rfl
      · exact .inr (List.mem_cons_of_mem _ later)
    · exact step counted rfl

theorem inapplicable_of_outcome {readings : Nat → Nat} {problem : Problem} {budgets : Budgets}
    {op : Operator}
    (counted : op ∈ Ordered.keys (outcome readings problem budgets).report.inapplicable) :
    op = .spread := by
  have settled : op ∈ Ordered.keys (follow problem budgets readings 0
      (searchEvents problem budgets.maxSize) .start).1.report.inapplicable := by
    simp only [outcome, Progress.finish, Progress.settle] at counted
    split at counted <;> exact counted
  rcases counted_of_follow settled with start | refused
  · cases start
  · exact refused_of_search refused

/-- **Domains are sound.** Arguments drawn one after the other meet no refused
domain, and once all are there the operator applies; only spreading can still
find that there is nothing to spread, a repeated key or a missing cell. So the
report of a run counts no other operator as inapplicable. -/
theorem domains_sound :
    (∀ (config : Config) (t : Table) (op : Operator) (given : List Argument),
      Drawing config t op given →
        (given.length < op.arity → ∃ values,
          Step.domain ⟨op, given ++ List.replicate (op.arity - given.length) .hole⟩
            (given.length + 1) t config = .ok values) ∧
        (given.length = op.arity →
          (∃ out, Step.apply ⟨op, given⟩ t = .ok out) ∨ op = .spread ∧ ∃ reason,
            Step.apply ⟨op, given⟩ t = .error (.inapplicable .spread reason) ∧
              (reason = .nothingToSpread ∨ (∃ cell, reason = .repeatedKey cell) ∨
                reason = .missingCells))) ∧
    ∀ (readings : Nat → Nat) (problem : Problem) (budgets : Budgets) (result : Synthesis),
      synthesize readings problem budgets = .ok result →
        ∀ op ∈ Ordered.keys result.report.inapplicable, op = .spread := by
  constructor
  · intro config t op given drawn
    exact ⟨drawn.suited.domain_ok, drawn.suited.apply_ok⟩
  · intro readings problem budgets result ran op counted
    rw [synthesize_eq] at ran
    obtain ⟨_, _, rfl⟩ := map_eq_ok.mp ran
    exact inapplicable_of_outcome counted

/-- Amounts of one region, which cannot be spread by region. -/
def regions : Table :=
  ⟨["region", "amount"], [.text, .number], [[.text "north", .number 1], [.text "north", .number 2]]⟩

/-- The amounts can be summed by region, and the run that cannot spread them
reports just that. -/
theorem domains_sound_regions :
    (∃ values, Step.domain ⟨.groupSum, [.columns [0], .column 1, .hole]⟩ 3 regions .standard =
      .ok values) ∧
    (∃ out, Step.apply ⟨.groupSum, [.columns [0], .column 1, .aggregate .sum]⟩ regions =
      .ok out) ∧
    ∃ result, synthesize (fun _ => 0) ⟨[regions], regions,
        { Config.standard with operators := [.spread, .cumsum] }⟩ ⟨1, 1, 9⟩ = .ok result ∧
      result.report.inapplicable = [(.spread, 2)] ∧
      ∀ op ∈ Ordered.keys result.report.inapplicable, op = .spread := by
  have grouped : Drawing .standard regions .groupSum ([] ++ [.columns [0]]) :=
    .next .nothing (by decide) rfl (by decide)
  have summed : Drawing .standard regions .groupSum ([.columns [0]] ++ [.column 1]) :=
    .next grouped (by decide) rfl (by decide)
  have total : Drawing .standard regions .groupSum
      ([.columns [0], .column 1] ++ [.aggregate .sum]) :=
    .next summed (by decide) rfl (by decide)
  refine ⟨(domains_sound.1 _ _ _ _ summed).1 (by decide), ?_, ?_⟩
  · rcases (domains_sound.1 _ _ _ _ total).2 rfl with applied | ⟨⟨⟩, -⟩
    exact applied
  · have counts : (synthesize (fun _ => 0) ⟨[regions], regions,
        { Config.standard with operators := [.spread, .cumsum] }⟩ ⟨1, 1, 9⟩).map
          (·.report.inapplicable) = .ok [(.spread, 2)] := by
      decide +kernel
    obtain ⟨result, ran, counted⟩ := map_eq_ok.mp counts
    exact ⟨result, ran, counted, domains_sound.2 _ _ _ _ ran⟩

end Search
end Reshape
