import Mathlib.Data.List.Lex
import Reshape.Proofs.Fillings
import Reshape.Proofs.PremiseChains
import Reshape.Proofs.SearchEvents
import Reshape.Proofs.StaticKinds

/-! Filling a sketch along a chain of premises finds what a naive enumeration
would find. The enumeration tries every choice in lexicographic order and keeps
those whose program has, at every depth, a value that includes the premise
there. The search leaves a choice as soon as a premise fails or the kinds of
columns rule it out; it loses none that is kept, and finds each of them once. -/
namespace Reshape

/-- Every part of a program has a value that includes the premise at its depth,
the table that it reads among them. -/
def Program.Meets (inputs : List Table) (p : Program) (premises : List Table) : Prop :=
  ∀ d ≤ p.size, ∃ premise t, premises[d]? = some premise ∧
    evalSteps inputs p.input (p.steps.drop d) = .ok t ∧ premise.includedIn t = true

/-- What a naive enumeration keeps of the programs of some operators on an
input: a choice for every argument, whose program meets every premise, and the
value of that program. -/
structure Keeps (inputs : List Table) (config : Config) (premises : List Table)
    (operators : List Operator) (input : Nat) (choice : List Nat) (find : Find) : Prop where
  input_eq : find.1.input = input
  operators_eq : find.1.operators = operators
  filled : Filled inputs config input [] find.1.steps choice
  meets : find.1.Meets inputs premises
  value_eq : find.1.eval inputs = .ok find.2

/-- These finds are all the ways there are, each once and in the lexicographic
order of their choices. -/
def Enumerates (finds : List Find) (way : List Nat → Find → Prop) : Prop :=
  ∃ ways : List (List Nat × Find), (ways.map (·.1)).Pairwise (List.Lex (· < ·)) ∧
    (∀ choice find, (choice, find) ∈ ways ↔ way choice find) ∧ finds = ways.map (·.2)

/-- The events find all the ways there are, in order. -/
def Lists (events : List Event) (way : List Nat → Find → Prop) : Prop :=
  Enumerates (findsOf events) way

namespace Lists

variable {events : List Event} {way : List Nat → Find → Prop}

theorem congr (lists : Lists events way) {other : List Nat → Find → Prop}
    (same : ∀ choice find, way choice find ↔ other choice find) : Lists events other := by
  obtain ⟨ways, sorted, each, found⟩ := lists
  exact ⟨ways, sorted, fun choice find => (each choice find).trans (same choice find), found⟩

/-- Where nothing is found there is no way. -/
theorem none (nothing : findsOf events = []) (never : ∀ choice find, ¬ way choice find) :
    Lists events way :=
  ⟨[], .nil, by simpa using never, nothing⟩

/-- Events that find nothing may come first. -/
theorem behind (lists : Lists events way) {first : Event} (silent : findsOf [first] = []) :
    Lists (first :: events) way := by
  obtain ⟨ways, sorted, each, found⟩ := lists
  refine ⟨ways, sorted, each, ?_⟩
  rw [finds_of_cons, silent, found, List.nil_append]

/-- Branches taken up one after the other make ways that begin with the number
of their branch. -/
theorem branch {α : Type} (values : List α) {next : α → List Event}
    {after : α → List Nat → Find → Prop} (each : ∀ value, Lists (next value) (after value))
    (start : Nat) : Lists (values.flatMap next) fun choice find =>
      ∃ place rest value, choice = (start + place) :: rest ∧ values[place]? = some value ∧
        after value rest find := by
  induction values generalizing start with
  | nil => exact none rfl (by simp)
  | cons value others ih =>
    obtain ⟨here, sortedHere, eachHere, foundHere⟩ := each value
    obtain ⟨later, sortedLater, eachLater, foundLater⟩ := ih (start + 1)
    refine ⟨here.map (fun way => (start :: way.1, way.2)) ++ later, ?_, ?_, ?_⟩
    · rw [List.map_append, List.map_map, List.pairwise_append]
      refine ⟨?_, sortedLater, ?_⟩
      · rw [List.pairwise_map] at sortedHere ⊢
        exact sortedHere.imp fun before => .cons before
      · intro first member second memberLater
        obtain ⟨_, -, rfl⟩ := List.mem_map.mp member
        obtain ⟨⟨choice, find⟩, held, rfl⟩ := List.mem_map.mp memberLater
        obtain ⟨place, rest, _, rfl, -⟩ := (eachLater choice find).mp held
        exact .rel (by omega)
    · intro choice find
      rw [List.mem_append, eachLater]
      constructor
      · rintro (member | ⟨place, rest, value', rfl, held, way⟩)
        · obtain ⟨⟨rest, found⟩, held, same⟩ := List.mem_map.mp member
          cases same
          exact ⟨0, rest, value, rfl, rfl, (eachHere rest found).mp held⟩
        · exact ⟨place + 1, rest, value', by rw [Nat.add_assoc, Nat.add_comm 1], held, way⟩
      · rintro ⟨place, rest, value', rfl, held, way⟩
        cases place with
        | zero =>
          cases held
          exact .inl (List.mem_map.mpr ⟨(rest, find), (eachHere rest find).mpr way, rfl⟩)
        | succ place =>
          exact .inr ⟨place, rest, value', by rw [Nat.add_assoc, Nat.add_comm 1], held, way⟩
    · rw [List.flatMap_cons, finds_of_append, foundHere, foundLater, List.map_append, List.map_map]
      rfl

end Lists

namespace Search

variable {inputs : List Table} {config : Config}

/-- **Filling one step.** Every choice of its arguments is taken up once, and
after it the ways that go on from the step it makes. -/
theorem fill_lists {below : Table} {op : Operator} {next : Step → List Event}
    {after : Step → List Nat → Find → Prop} (each : ∀ step, Lists (next step) (after step))
    (left : Nat) (given : List Argument) :
    Lists (fillEvents config below next left (given.length + 1)
        ⟨op, given ++ List.replicate left .hole⟩) fun choice find =>
      ∃ rest own later, choice = own ++ later ∧ rest.length = left ∧
        Drawn config below op given rest own ∧ after ⟨op, given ++ rest⟩ later find := by
  induction left generalizing given with
  | zero =>
    refine Lists.behind ((each _).congr fun choice find => ?_) rfl
    constructor
    · intro way
      exact ⟨[], [], choice, rfl, rfl, .done, by simpa using way⟩
    · rintro ⟨rest, own, later, rfl, empty, drawn, way⟩
      cases drawn with
      | done => simpa using way
      | next => cases empty
  | succ left ih =>
    rw [fillEvents]
    refine Lists.behind ?_ rfl
    rw [if_pos (Step.first_hole given left)]
    split
    · rename_i refusal offered
      refine Lists.none rfl ?_
      rintro choice find ⟨rest, own, later, -, length, drawn, -⟩
      cases drawn with
      | done => cases length
      | next again =>
        rw [← List.length_cons, length, offered] at again
        cases again
    · rename_i values offered
      have branches := Lists.branch values (fun value => ih (given ++ [value])) 0
      simp only [List.length_append, List.length_singleton] at branches
      simp only [Step.fill_first_hole]
      refine branches.congr fun choice find => ?_
      constructor
      · rintro ⟨place, _, value, rfl, taken, rest, own, later, rfl, length, drawn, way⟩
        have chosen : Drawn config below op given (value :: rest) (place :: own) :=
          .next (length ▸ offered) taken drawn
        exact ⟨value :: rest, place :: own, later, by simp, by simp [length], chosen,
          by simpa using way⟩
      · rintro ⟨rest, own, later, rfl, length, drawn, way⟩
        cases drawn with
        | done => cases length
        | next again taken drawn =>
          rename_i rest value own values' place
          have fewer : rest.length = left := Nat.succ.inj length
          rw [fewer, offered] at again
          cases again
          exact ⟨place, _, value, by simp, taken, rest, own, later, rfl, fewer, drawn,
            by simpa using way⟩

/-- Steps with these operators, the innermost first, put by a choice around
others so that each of them meets the premise at its depth. -/
structure Reaches (inputs : List Table) (config : Config) (chain : Chain) (input : Nat)
    (operators : List Operator) (done : List Step) (choice : List Nat) (outer : List Step)
    (value : Table) : Prop where
  operators_eq : outer.map Step.operator = operators.reverse
  filled : Filled inputs config input done outer choice
  value_eq : evalSteps inputs input (outer ++ done) = .ok value
  meets : ∀ d < operators.length, ∃ t,
    evalSteps inputs input ((outer ++ done).drop d) = .ok t ∧ chain.holdsAt d t = true

/-- The innermost step comes first: it is chosen above the value of what is
done, and its own value meets the premise before anything is put around it. -/
theorem reaches_cons_iff {chain : Chain} {input : Nat} {op : Operator} {above : List Operator}
    {done steps : List Step} {choice : List Nat} {below value : Table}
    (beneath : evalSteps inputs input done = .ok below) :
    Reaches inputs config chain input (op :: above) done choice steps value ↔
      ∃ step outer own later out, steps = outer ++ [step] ∧ choice = own ++ later ∧
        step.operator = op ∧ step.Chosen config below own ∧ step.apply below = .ok out ∧
          chain.holdsAt above.length out = true ∧
            Reaches inputs config chain input above (step :: done) later outer value := by
  have same (outer : List Step) (step : Step) :
      outer ++ [step] ++ done = outer ++ step :: done := by
    simp
  have applied (step : Step) : evalSteps inputs input (step :: done) = step.apply below := by
    rw [evalSteps, beneath]
    rfl
  constructor
  · rintro ⟨operators_eq, filled, value_eq, meets⟩
    rw [List.reverse_cons] at operators_eq
    obtain ⟨outer, last, rfl, outerEq, lastEq⟩ := List.map_eq_append_iff.mp operators_eq
    obtain ⟨step, rfl, opEq⟩ := List.map_eq_singleton_iff.mp lastEq
    obtain ⟨below', own, later, rfl, again, chosen, rest⟩ := filled_snoc_iff.mp filled
    rw [beneath] at again
    cases again
    have length : outer.length = above.length := by
      simpa using congrArg List.length outerEq
    obtain ⟨out, made, held⟩ := meets above.length (Nat.lt_succ_self _)
    rw [same, ← length, List.drop_left, applied] at made
    rw [same] at value_eq
    refine ⟨step, outer, own, later, out, rfl, rfl, opEq, chosen, made, held, outerEq, rest,
      value_eq, fun d inside => ?_⟩
    rw [← same]
    exact meets d (Nat.lt_succ_of_lt inside)
  · rintro ⟨step, outer, own, later, out, rfl, rfl, rfl, chosen, made, held, reached⟩
    have length : outer.length = above.length := by
      simpa using congrArg List.length reached.operators_eq
    refine ⟨by simp [reached.operators_eq], ?_, (same outer step).symm ▸ reached.value_eq, ?_⟩
    · exact filled_snoc_iff.mpr ⟨below, own, later, rfl, beneath, chosen, reached.filled⟩
    · intro d inside
      rw [same]
      rcases Nat.lt_succ_iff_lt_or_eq.mp inside with less | rfl
      · exact reached.meets d less
      · refine ⟨out, ?_, held⟩
        rw [← length, List.drop_left, applied, made]

/-- Applying a step whose arguments are all there. Nothing is found where its
kinds rule it out, it fails or its value misses the premise, and there is no
way in any of these cases. -/
theorem apply_lists {chain : Chain} {below : Table}
    (shapedChain : ∀ target ∈ chain, target.Shaped) (shaped : below.Shaped) (depth : Nat)
    (step : Step) {next : Table → List Event} {after : Table → List Nat → Find → Prop}
    (each : ∀ out, step.apply below = .ok out → Lists (next out) (after out)) :
    Lists
      (if ruledOut chain depth step below then [.pruned]
        else .tried :: match step.apply below with
          | .error _ => [.refused step.operator]
          | .ok out => if chain.holdsAt depth out then next out else [.pruned])
      fun choice find => ∃ out, step.apply below = .ok out ∧ chain.holdsAt depth out = true ∧
        after out choice find := by
  split
  · rename_i ruled
    refine Lists.none rfl ?_
    rintro choice find ⟨out, made, held, -⟩
    rw [not_holds_of_ruled_out shapedChain shaped ruled made] at held
    cases held
  · refine Lists.behind ?_ rfl
    cases made : step.apply below with
    | error refusal => exact Lists.none rfl (by simp)
    | ok out =>
      dsimp only
      split
      · rename_i held
        exact (each out made).congr (by simp [held])
      · rename_i missed
        exact Lists.none rfl (by simp [missed])

/-- **Filling the steps that are left.** What is found are the ways to put all
of them around what is done; ruling out and leaving early lose none. -/
theorem ascend_lists {chain : Chain} {input : Nat} (shapedInputs : ∀ t ∈ inputs, t.Shaped)
    (shapedChain : ∀ target ∈ chain, target.Shaped) (operators : List Operator)
    {done : List Step} {below : Table} (beneath : evalSteps inputs input done = .ok below) :
    Lists (ascendEvents config chain input (operators.map Step.sketch) done below)
      fun choice find => ∃ outer, find.1 = ⟨input, outer ++ done⟩ ∧
        Reaches inputs config chain input operators done choice outer find.2 := by
  induction operators generalizing done below with
  | nil =>
    refine ⟨[([], ⟨input, done⟩, below)], by simp, fun choice find => ?_, rfl⟩
    constructor
    · intro only
      cases List.mem_singleton.mp only
      exact ⟨[], rfl, rfl, .nothing, beneath, nofun⟩
    · rintro ⟨outer, program, operators_eq, filled, value_eq, -⟩
      obtain rfl : outer = [] := by simpa using operators_eq
      cases filled
      rw [List.nil_append, beneath, Except.ok.injEq] at value_eq
      exact List.mem_singleton.mpr (Prod.ext rfl (Prod.ext program value_eq.symm))
  | cons op above ih =>
    rw [List.map_cons, ascendEvents]
    have shapedBelow : below.Shaped := eval_steps_shaped shapedInputs beneath
    have applied (step : Step) (out : Table) (made : step.apply below = .ok out) :
        evalSteps inputs input (step :: done) = .ok out := by
      rw [evalSteps, beneath]
      exact made
    have onward (step : Step) := apply_lists shapedChain shapedBelow above.length step
      fun out made => ih (applied step out made)
    simp only [List.length_map]
    refine (fill_lists onward op.arity []).congr fun choice find => ?_
    constructor
    · rintro ⟨arguments, own, later, rfl, total, drawn, out, made, held, outer, program, reached⟩
      refine ⟨outer ++ [⟨op, arguments⟩], by simpa using program, ?_⟩
      exact (reaches_cons_iff beneath).mpr
        ⟨_, outer, own, later, out, rfl, rfl, rfl, ⟨total, drawn⟩, made, held, reached⟩
    · rintro ⟨steps, program, reached⟩
      obtain ⟨step, outer, own, later, out, rfl, rfl, rfl, chosen, made, held, reached⟩ :=
        (reaches_cons_iff beneath).mp reached
      exact ⟨step.arguments, own, later, rfl, chosen.total, chosen.drawn, out, made, held, outer,
        by simpa using program, reached⟩

theorem holds_at_iff {chain : Chain} {depth : Nat} (inside : depth < chain.length) (t : Table) :
    chain.holdsAt depth t = true ↔
      ∃ premise, chain[depth]? = some premise ∧ premise.includedIn t = true := by
  rw [Chain.holdsAt, List.getElem?_eq_getElem inside]
  simp

theorem eval_input_eq_ok {input : Nat} {t : Table} :
    evalSteps inputs input [] = .ok t ↔ inputs[input]? = some t := by
  rw [evalSteps]
  cases inputs[input]? <;> simp

/-- Meeting all premises is meeting that of the input and those of the steps. -/
theorem meets_iff {p : Program} {premises : Chain} (total : premises.length = p.size + 1) :
    p.Meets inputs premises ↔
      (∃ t, inputs[p.input]? = some t ∧ premises.holdsAt p.size t = true) ∧
        ∀ d < p.size, ∃ t,
          evalSteps inputs p.input (p.steps.drop d) = .ok t ∧ premises.holdsAt d t = true := by
  have last : p.steps.drop p.size = [] := List.drop_length
  constructor
  · intro meets
    constructor
    · obtain ⟨premise, t, held, value, included⟩ := meets p.size le_rfl
      rw [last, eval_input_eq_ok] at value
      exact ⟨t, value, (holds_at_iff (by omega) t).mpr ⟨premise, held, included⟩⟩
    · intro d inside
      obtain ⟨premise, t, held, value, included⟩ := meets d inside.le
      exact ⟨t, value, (holds_at_iff (by omega) t).mpr ⟨premise, held, included⟩⟩
  · rintro ⟨⟨table, here, bottom⟩, meets⟩ d inside
    rcases Nat.lt_or_eq_of_le inside with less | rfl
    · obtain ⟨t, value, held⟩ := meets d less
      obtain ⟨premise, found, included⟩ := (holds_at_iff (by omega) t).mp held
      exact ⟨premise, t, found, value, included⟩
    · obtain ⟨premise, found, included⟩ := (holds_at_iff (by omega) table).mp bottom
      exact ⟨premise, table, found, by rw [last, eval_input_eq_ok, here], included⟩

/-- **Filling a sketch.** What is found are the programs of its choices that
meet the premise at every depth, that of the input among them. -/
theorem instantiate_lists (config : Config) {premises : Chain}
    (shapedInputs : ∀ t ∈ inputs, t.Shaped)
    (shapedPremises : ∀ premise ∈ premises, premise.Shaped) {operators : List Operator}
    (total : premises.length = operators.length + 1) (input : Nat) :
    Lists (instantiateEvents inputs config premises (Program.sketch operators input))
      (Keeps inputs config premises operators input) := by
  have size {p : Program} (same : p.operators = operators) : p.size = operators.length := by
    rw [← same, Program.operators, List.length_map, Program.size]
  have length : (Program.sketch operators input).size = operators.length := by
    simp [Program.sketch, Program.size]
  have inward : (Program.sketch operators input).steps.reverse =
      operators.reverse.map Step.sketch := by
    simp [Program.sketch]
  have reads : (Program.sketch operators input).input = input := rfl
  rw [instantiateEvents, length, inward, reads]
  cases here : inputs[input]? with
  | none =>
    refine Lists.none rfl ?_
    rintro choice ⟨p, value⟩ ⟨rfl, same, -, meets, -⟩
    obtain ⟨⟨t, again, -⟩, -⟩ := (meets_iff (by rw [size same, total])).mp meets
    rw [here] at again
    cases again
  | some table =>
    dsimp only
    split
    · rename_i held
      have beneath : evalSteps inputs input [] = .ok table := eval_input_eq_ok.mpr here
      refine (ascend_lists shapedInputs shapedPremises operators.reverse beneath).congr ?_
      rintro choice ⟨p, value⟩
      constructor
      · rintro ⟨outer, rfl, operators_eq, filled, value_eq, meets⟩
        rw [List.reverse_reverse] at operators_eq
        rw [List.append_nil] at value_eq meets ⊢
        rw [List.length_reverse] at meets
        refine ⟨rfl, operators_eq, filled, ?_, value_eq⟩
        have same : Program.size ⟨input, outer⟩ = operators.length := size operators_eq
        rw [meets_iff (by rw [same, total]), same]
        exact ⟨⟨table, here, held⟩, meets⟩
      · rintro ⟨rfl, same, filled, meets, value_eq⟩
        rw [meets_iff (by rw [size same, total]), size same] at meets
        refine ⟨p.steps, by simp, ?_, filled, ?_, ?_⟩
        · rwa [List.reverse_reverse]
        · rwa [List.append_nil]
        · rw [List.append_nil, List.length_reverse]
          exact meets.2
    · rename_i missed
      refine Lists.none rfl ?_
      rintro choice ⟨p, value⟩ ⟨rfl, same, -, meets, -⟩
      rw [meets_iff (by rw [size same, total]), size same] at meets
      obtain ⟨⟨t, again, held⟩, -⟩ := meets
      rw [here] at again
      cases again
      exact missed held

/-- Listening without a limit takes in what an event finds and goes on. -/
theorem listen_one (event : Event) (collection : Collection) : ∃ report,
    (Collection.listen none false event).run.run collection =
      (.ok (), ⟨collection.found ++ findsOf [event], report⟩) := by
  cases event with
  | found program value => exact ⟨_, rfl⟩
  | _ => exact ⟨_, congrArg (fun found => (Except.ok (), Collection.mk found _))
      (List.append_nil collection.found).symm⟩

/-- Listening without a limit collects all that is found and never ends
early. -/
theorem listen_all (events : List Event) (collection : Collection) : ∃ report,
    (events.forM (Collection.listen none false)).run.run collection =
      (.ok (), ⟨collection.found ++ findsOf events, report⟩) := by
  induction events generalizing collection with
  | nil => exact ⟨collection.report, by simp [findsOf]; rfl⟩
  | cons event rest ih =>
    obtain ⟨report, one⟩ := listen_one event collection
    obtain ⟨last, all⟩ := ih ⟨collection.found ++ findsOf [event], report⟩
    refine ⟨last, ?_⟩
    rw [List.forM_eq_forM] at all ⊢
    rw [List.forM_cons, ExceptT.run_bind, StateT.run_bind, one]
    rw [finds_of_cons event rest, ← List.append_assoc]
    exact all

/-- **Collecting agrees with naive enumeration.** Along a chain of premises of a
target, filling a sketch without limits calls out one program for each choice
of a place in every domain whose program meets the premise at every depth, in
the lexicographic order of the choices. Each is without holes and comes with
its value. -/
theorem collect_enumerates_choices {inputs : List Table} {target : Table}
    (shapedInputs : ∀ t ∈ inputs, t.Shaped) (shapedTarget : target.Shaped) (config : Config)
    {operators : List Operator} {chain : List Obligation}
    (chained : chain ∈ (Premises.build operators target).chains) (input : Nat) (report : Report) :
    let premises := chain.map Obligation.target
    let collected :=
      collect inputs config premises (Program.sketch operators input) none false report
    collected.2 = false ∧
      Enumerates collected.1.found (Keeps inputs config premises operators input) ∧
      ∀ find ∈ collected.1.found, find.1.isConcrete = true ∧ find.1.eval inputs = .ok find.2 := by
  intro premises collected
  have derived : premises ∈ derivations 0 operators target := by
    rw [← Premises.chains_targets]
    exact List.mem_map_of_mem chained
  have lists := instantiate_lists config shapedInputs
    (derivations_shaped shapedTarget derived) (mem_derivations.mp derived).1 input
  obtain ⟨last, ran⟩ := listen_all
    (instantiateEvents inputs config premises (Program.sketch operators input)) ⟨[], report⟩
  have collected_eq : collected = (⟨findsOf (instantiateEvents inputs config premises
      (Program.sketch operators input)), last⟩, false) := by
    simp only [collected, collect, instantiate_eq, ran, List.nil_append]
  rw [collected_eq]
  refine ⟨rfl, lists, ?_⟩
  obtain ⟨ways, -, each, found⟩ := lists
  intro find member
  rw [found] at member
  obtain ⟨⟨choice, _⟩, held, rfl⟩ := List.mem_map.mp member
  have kept := (each choice _).mp held
  exact ⟨List.all_eq_true.mpr kept.filled.concrete, kept.value_eq⟩

/-- Selecting from two columns what includes a table of one: the second column,
or both. -/
theorem collect_enumerates_selections :
    let t : Table := ⟨["a", "b"], [.text, .text], [[.text "x", .text "y"]]⟩
    let target : Table := ⟨["c"], [.text], [[.text "y"]]⟩
    let collected :=
      collect [t] .standard [target, target] (Program.sketch [.select] 0) none false .empty
    collected.1.found.map (·.1.steps) =
        [[⟨.select, [.columns [1]]⟩], [⟨.select, [.columns [0, 1]]⟩]] ∧
      collected.2 = false ∧
      Enumerates collected.1.found (Keeps [t] .standard [target, target] [.select] 0) ∧
      ∀ find ∈ collected.1.found, find.1.isConcrete = true ∧ find.1.eval [t] = .ok find.2 := by
  intro t target collected
  have shaped : ∀ t' ∈ [t], t'.Shaped := by
    intro t' member
    cases List.mem_singleton.mp member
    exact ⟨rfl, by simp [t]⟩
  have shapedTarget : target.Shaped := ⟨rfl, by simp [target]⟩
  have chained : [(⟨target, 0, none⟩ : Obligation), ⟨target, 1, some 0⟩] ∈
      (Premises.build [.select] target).chains := by
    decide
  exact ⟨by decide, collect_enumerates_choices shaped shapedTarget .standard chained 0 .empty⟩

end Search
end Reshape
