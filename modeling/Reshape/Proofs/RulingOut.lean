import Reshape.Proofs.StaticKinds

/-! Ruling out is an optimization. Before a step is applied, the kinds of its
columns may rule the premise at its depth out. Here the search is written down
once more without this test, so that every step is applied. Whoever is called
with the programs that are found, and only with them, cannot tell the two
searches apart: it is called with the same programs in the same order, and what
it decides has the same effect. -/
namespace Reshape

namespace Search

section Applying

variable {m : Type → Type} [Monad m] (visit : Event → m Unit)

/-- `ascend` without the test of kinds. -/
def ascendApplying (config : Config) (chain : Chain) (input : Nat) :
    (inward : List Step) → (done : List Step) → (value : Table) → m Unit
  | [], done, value => visit (.found ⟨input, done⟩ value)
  | step :: above, done, below =>
    fillStep visit config below
      (fun step => do
        visit .tried
        match step.apply below with
        | .error _ => visit (.refused step.operator)
        | .ok value =>
          if chain.holdsAt above.length value then
            ascendApplying config chain input above (step :: done) value
          else visit .pruned)
      step.operator.arity 1 step

/-- `instantiate` without the test of kinds. -/
def instantiateApplying (inputs : List Table) (config : Config) (chain : Chain)
    (sketch : Program) : m Unit :=
  match inputs[sketch.input]? with
  | none => pure ()
  | some table =>
    if chain.holdsAt sketch.size table then
      ascendApplying visit config chain sketch.input sketch.steps.reverse [] table
    else visit .pruned

/-- Is called with the programs that are found and with nothing else; above all
it knows of no time that might be up. -/
def calling (onProgram : Program → Table → m Unit) : Event → m Unit
  | .found program value => onProgram program value
  | _ => pure ()

end Applying

section Searches

variable {m : Type → Type} [Monad m] [LawfulMonad m] {onProgram : Program → Table → m Unit}
  {chain : Chain}

omit [LawfulMonad m] in
/-- A step that is ruled out leads to no call when it is applied. -/
theorem applied_ruled_out (shapedChain : ∀ target ∈ chain, target.Shaped) {depth : Nat}
    {step : Step} {below : Table} (shaped : below.Shaped)
    (ruled : ruledOut chain depth step below = true) (next : Table → m Unit) :
    (match step.apply below with
      | .error _ => calling onProgram (.refused step.operator)
      | .ok value => if chain.holdsAt depth value then next value
        else calling onProgram .pruned) = pure () := by
  cases ran : step.apply below with
  | error refusal => rfl
  | ok value =>
    have unmet : chain.holdsAt depth value = false :=
      not_holds_of_ruled_out shapedChain shaped ruled ran
    dsimp only
    rw [unmet]
    rfl

/-- The steps that are left are filled with the same calls. Every table on the way up keeps
its shape, which is what ruling out relies on. -/
theorem ascend_eq_applying (shapedChain : ∀ target ∈ chain, target.Shaped) (config : Config)
    (input : Nat) (inward done : List Step) {value : Table} (shaped : value.Shaped) :
    ascend (calling onProgram) config chain input inward done value =
      ascendApplying (calling onProgram) config chain input inward done value := by
  induction inward generalizing done value with
  | nil => rfl
  | cons step above ih =>
    rw [ascend, ascendApplying]
    refine congrArg (fun next => fillStep _ config value next _ 1 step) (funext fun step => ?_)
    cases ruled : ruledOut chain above.length step value with
    | true =>
      rw [if_pos rfl, applied_ruled_out shapedChain shaped ruled]
      simp [calling]
    | false =>
      rw [if_neg nofun]
      refine bind_congr fun _ => ?_
      cases ran : step.apply value with
      | error refusal => rfl
      | ok out =>
        dsimp only
        split
        · exact ih (step :: done) (Step.apply_shaped shaped ran)
        · rfl

end Searches

/-- **Ruling out is an optimization.** Without it the same programs are found in the same
order, whoever is called with them and whatever that decides; what a sketch or a chain is, and
which arguments are given beforehand, makes no difference. For the kinds told in advance are
those of the value, and a table whose premise is met has room for its kinds. -/
theorem instantiate_eq_applying :
    (∀ (m : Type → Type) [Monad m] [LawfulMonad m] (onProgram : Program → Table → m Unit)
      (inputs : List Table) (config : Config) (chain : Chain) (sketch : Program),
      (∀ t ∈ inputs, t.Shaped) → (∀ target ∈ chain, target.Shaped) →
      instantiate (calling onProgram) inputs config chain sketch =
        instantiateApplying (calling onProgram) inputs config chain sketch) ∧
    ∀ (step : Step) (below value target : Table) (kinds : List Kind), below.Shaped →
      target.Shaped → step.kinds below.kinds = .ok kinds → step.apply below = .ok value →
      target.includedIn value = true → target.fitsKinds kinds = true := by
  constructor
  · intro m _ _ onProgram inputs config chain sketch shaped shapedChain
    rw [instantiate, instantiateApplying]
    cases given : inputs[sketch.input]? with
    | none => rfl
    | some table =>
      dsimp only
      split
      · have shapedTable : table.Shaped := shaped table (List.mem_of_getElem? given)
        exact ascend_eq_applying shapedChain config _ _ _ shapedTable
      · rfl
  · intro step below value target kinds shaped shapedTarget told ran included
    exact Step.fits_kinds_of_apply shapedTarget shaped told ran included

end Search

namespace RulingOut

open StaticKinds (counts)

/-- The counts with their quarters below each other. -/
def byQuarter : Table where
  columns := ["code", "KEY", "VALUE"]
  kinds := [.text, .text, .number]
  rows := [[.text "a-b", .text "q1", .number 1], [.text "a-b", .text "q2", .number 2]]

/-- A quarter and its count. -/
def quarter : Table := ⟨["quarter", "count"], [.text, .number], [[.text "q2", .number 2]]⟩

/-- Selects columns of the gathered counts. What to gather is given beforehand. -/
def selecting : Program := ⟨0, [⟨.select, [.hole]⟩, ⟨.gatherNeg, [.columns [0]]⟩]⟩

/-- Keeps the first program and calls the search off. -/
def first (p : Program) (_ : Table) : ExceptT Unit (StateM (List Program)) Unit := do
  modify (p :: ·)
  throw ()

/-- How a search ends, and what it has kept by then. -/
def outcome (search : ExceptT Unit (StateM (List Program)) Unit) :
    Except Unit Unit × List Program := search.run.run []

end RulingOut

open RulingOut Search StaticKinds in
theorem Search.instantiate_eq_applying_quarter :
    ruledOut [quarter, quarter] 0 ⟨.select, [.columns [0]]⟩ byQuarter = true ∧
      outcome (instantiateApplying (calling first) [counts] .standard [quarter, quarter]
        selecting) =
        (.error (), [⟨0, [⟨.select, [.columns [1, 2]]⟩, ⟨.gatherNeg, [.columns [0]]⟩]⟩]) ∧
      quarter.fitsKinds [.text, .number] = true := by
  obtain ⟨same, room⟩ := instantiate_eq_applying
  have shaped : counts.Shaped := ⟨rfl, by decide⟩
  have shapedQuarter : quarter.Shaped := ⟨rfl, by decide⟩
  have shapedBelow : byQuarter.Shaped := ⟨rfl, by decide⟩
  refine ⟨by decide +kernel, ?_, ?_⟩
  · rw [← same _ first [counts] .standard [quarter, quarter] selecting (by simpa using shaped)
      (by simpa using shapedQuarter)]
    decide +kernel
  · exact room ⟨.select, [.columns [1, 2]]⟩ byQuarter (byQuarter.project [1, 2]) quarter _
      shapedBelow shapedQuarter rfl rfl (by decide +kernel)

end Reshape
