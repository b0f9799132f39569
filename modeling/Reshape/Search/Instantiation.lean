import Reshape.Inclusion
import Reshape.Program.Domain
import Reshape.Search.Report

/-! Filling the holes of one sketch, the innermost step first. When all
arguments of a step are chosen it is applied to the table below, and the result
has to include the premise at its depth before any step above is looked at. A
branch that fails is left at once. Arguments that are given already stay. -/
namespace Reshape

/-- Whether columns of these kinds leave room for a table. Cells of different
kinds never match, so each column of a table with rows needs a column of its
own kind. -/
def Table.fitsKinds (target : Table) (kinds : List Kind) : Bool :=
  target.height = 0 ∨ [Kind.text, .number, .boolean].all fun kind =>
    decide (target.kinds.count kind ≤ kinds.count kind)

/-- A chain of premises: the table that the part at each depth has to include.
Depths without an entry have no premise. -/
abbrev Chain := List Table

/-- Whether a table includes the premise at a depth. -/
def Chain.holdsAt (chain : Chain) (depth : Nat) (t : Table) : Bool :=
  match chain[depth]? with
  | some target => target.includedIn t
  | none => true

/-- Whether columns of these kinds leave room for the premise at a depth. -/
def Chain.fitsAt (chain : Chain) (depth : Nat) (kinds : List Kind) : Bool :=
  match chain[depth]? with
  | some target => target.fitsKinds kinds
  | none => true

namespace Search

variable {m : Type → Type} [Monad m] (visit : Event → m Unit)

/-- Fills the holes of a step from a position on, `left` positions remaining,
and goes on with each way to do so. -/
def fillStep (config : Config) (below : Table) (next : Step → m Unit) :
    (left position : Nat) → Step → m Unit
  | 0, _, step => do
    visit .check
    next step
  | left + 1, position, step => do
    visit .check
    if step.argument? position = some .hole then
      match step.domain position below config with
      | .error _ => pure ()
      | .ok values =>
        values.forM fun value =>
          fillStep config below next left (position + 1) (step.withArgument position value)
    else fillStep config below next left (position + 1) step

/-- Whether the kinds of a step's columns, where they can be told, rule out the
premise at its depth. -/
def ruledOut (chain : Chain) (depth : Nat) (step : Step) (below : Table) : Bool :=
  match step.kinds below.kinds with
  | .ok kinds => !chain.fitsAt depth kinds
  | .error _ => false

/-- Fills the steps that are left, the innermost first, around the steps that
are done and have this value. -/
def ascend (config : Config) (chain : Chain) (input : Nat) :
    (inward : List Step) → (done : List Step) → (value : Table) → m Unit
  | [], done, value => visit (.found ⟨input, done⟩ value)
  | step :: above, done, below =>
    fillStep visit config below
      (fun step => do
        if ruledOut chain above.length step below then visit .pruned
        else
          visit .tried
          match step.apply below with
          | .error _ => visit (.refused step.operator)
          | .ok value =>
            if chain.holdsAt above.length value then
              ascend config chain input above (step :: done) value
            else visit .pruned)
      step.operator.arity 1 step

/-- Fills a sketch in every way that meets a chain of premises. A sketch of an
input that is not there has no such way. -/
def instantiate (inputs : List Table) (config : Config) (chain : Chain) (sketch : Program) :
    m Unit :=
  match inputs[sketch.input]? with
  | none => pure ()
  | some table =>
    if chain.holdsAt sketch.size table then
      ascend visit config chain sketch.input sketch.steps.reverse [] table
    else visit .pruned

/-- What is collected from filling one sketch. -/
structure Collection where
  found : List (Program × Table)
  report : Report

/-- Listens to the filling of one sketch, until there are enough programs or
the time is up. -/
def Collection.listen (enough : Option Nat) (late : Bool) (event : Event) :
    ExceptT Unit (StateM Collection) Unit := do
  modify fun c => { c with report := c.report.record event }
  match event with
  | .check =>
    if late then
      modify fun c => { c with report := { c.report with timedOut := true } }
      throw ()
  | .found program value =>
    modify fun c => { c with found := c.found ++ [(program, value)] }
    if enough.any (· ≤ (← get).found.length) then throw ()
  | _ => pure ()

/-- Collects the ways to fill a sketch, going on from the counts of a report.
Tells also whether it ended before all ways were seen. -/
def collect (inputs : List Table) (config : Config) (chain : Chain) (sketch : Program)
    (enough : Option Nat) (late : Bool) (report : Report) : Collection × Bool :=
  let (ending, collection) :=
    ((instantiate (Collection.listen enough late) inputs config chain sketch).run).run ⟨[], report⟩
  (collection, match ending with
    | .ok () => false
    | .error () => true)

end Search
end Reshape
