import Reshape.Problem.Error
import Reshape.Requirement.Premises
import Reshape.Search.Instantiation
import Reshape.Sketch

/-! The whole search: sizes in increasing order, the sketches of a size in
their order, and for each sketch the chains of premises that the target puts on
it. Every program found is evaluated once more and aligned with the target, and
this alone decides whether it is accepted. The search ends when enough programs
are accepted or the time is up, and what it has accepted by then is its
result. -/
namespace Reshape

/-- A search problem: tables to start from, a table to be included in the
result, and what programs may use. -/
structure Problem where
  inputs : List Table
  target : Table
  config : Config
deriving DecidableEq, Repr

/-- An accepted program, its value on the inputs, and the column of the value
for each column of the target. -/
structure Solution where
  program : Program
  output : Table
  alignment : List Nat
deriving DecidableEq, Repr

/-- The accepted programs in the order in which they were found. -/
structure Synthesis where
  solutions : List Solution
  report : Report
deriving DecidableEq, Repr

namespace Search

section Traversal

variable {m : Type → Type} [Monad m] (visit : Event → m Unit)

/-- Searches one sketch along each of its chains of premises. -/
def searchSketch (problem : Problem) (sketch : Program) : m Unit := do
  let chains := (Premises.build sketch.operators problem.target).chains
  visit (.chains chains.length)
  chains.forM fun chain => do
    visit .check
    instantiate visit problem.inputs problem.config (chain.map Obligation.target) sketch

/-- Searches the programs of a size and of `more` sizes beyond it. -/
def searchSizes (problem : Problem) (context : Context) :
    (more size : Nat) → Levels → m Unit
  | 0, size, levels => do
    let _ ← searchSize size levels
  | more + 1, size, levels => do
    let levels ← searchSize size levels
    searchSizes problem context more (size + 1) levels
where
  /-- Searches the programs of one size. -/
  searchSize (size : Nat) (levels : Levels) : m Levels := do
    visit (.size size)
    let (all, levels) := levels.level size
    let (admitted, levels) := levels.admissible size context
    visit (.sketches size all.length admitted.length)
    admitted.forM (searchSketch visit problem)
    return levels

/-- Searches all programs up to a size. -/
def search (problem : Problem) (maxSize : Nat) : m Unit :=
  searchSizes visit problem (.of problem.inputs problem.target) maxSize 0
    (.start problem.config.operators problem.inputs.length)

end Traversal

/-- Evaluates a program once more and aligns its value with the target. -/
def finalCheck (problem : Problem) (program : Program) : Option Solution :=
  match program.eval problem.inputs with
  | .error _ => none
  | .ok output =>
    (Table.align .included problem.target output).map fun alignment =>
      { program, output, alignment }

/-- What a search has come to. -/
structure Progress where
  report : Report
  solutions : List Solution
  /-- The programs found so far, each given by the one that stands for all of
  equal value. -/
  seen : List Program
  /-- The size being searched, and when that began. -/
  current : Option (Nat × Nat)

namespace Progress

/-- Nothing has happened. -/
def start : Progress := ⟨.empty, [], [], none⟩

/-- Adds the time since the current size began to that size. -/
def settle (p : Progress) (now : Nat) : Progress :=
  match p.current with
  | none => p
  | some (size, since) =>
    { p with
      report := { p.report with sizes := Ordered.add size (now - since) p.report.sizes }
      current := none }

/-- Takes in a program that was found. One that was found before changes
nothing. -/
def take (problem : Problem) (p : Progress) (program : Program) : Progress :=
  { p with
    report := { p.report with finalChecks := p.report.finalChecks + 1 }
    seen := program.canonical :: p.seen
    solutions := p.solutions ++ (finalCheck problem program).toList }

/-- Takes in an event at a time, and tells whether the search goes on. -/
def next (problem : Problem) (budgets : Budgets) (now : Nat) (event : Event) (p : Progress) :
    Progress × Bool :=
  let p := { p with report := p.report.record event }
  match event with
  | .size size => ({ p.settle now with current := some (size, now) }, true)
  | .check =>
    if budgets.timeLimit ≤ now then
      ({ p with report := { p.report with timedOut := true } }, false)
    else (p, true)
  | .found program _ =>
    if program.canonical ∈ p.seen then (p, true)
    else
      let p := p.take problem program
      (p, p.solutions.length < budgets.solutionLimit)
  | _ => (p, true)

/-- The result of a search that ends now. -/
def finish (p : Progress) (now : Nat) : Synthesis :=
  let p := p.settle now
  { solutions := p.solutions
    report := { p.report with accepted := p.solutions.length, elapsed := now } }

end Progress

variable {n : Type → Type} [Monad n]

/-- Listens to a search with a clock that tells the nanoseconds since it
began. -/
def listen (clock : n Nat) (announce : Event → n Unit) (problem : Problem) (budgets : Budgets)
    (event : Event) : ExceptT Unit (StateT Progress n) Unit := do
  announce event
  let now ← (clock : n Nat)
  let (p, goesOn) := (← get).next problem budgets now event
  set p
  if !goesOn then throw ()

/-- Runs a search, announcing each event as it happens. -/
def run (clock : n Nat) (announce : Event → n Unit) (problem : Problem) (budgets : Budgets) :
    n Synthesis := do
  let (_, p) ← ((search (listen clock announce problem budgets) problem budgets.maxSize).run).run
    .start
  return p.finish (← clock)

/-- Requires a problem with inputs, and limits under which something can be
found. -/
def validate (problem : Problem) (budgets : Budgets) : Except ProblemError Unit := do
  if problem.inputs = [] then throw .noInputs
  budgets.validate.mapError .budget

/-- A clock that gives the first reading, then the second, and so on. -/
def readingClock (readings : Nat → Nat) : StateM Nat Nat := fun i => (readings i, i + 1)

/-- The programs for a problem, under a clock with these readings. -/
def synthesize (readings : Nat → Nat) (problem : Problem) (budgets : Budgets) :
    Except ProblemError Synthesis := do
  validate problem budgets
  return ((run (readingClock readings) (fun _ => pure ()) problem budgets).run 0).1

end Search
end Reshape
