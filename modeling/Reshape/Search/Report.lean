import Reshape.Ordered
import Reshape.Problem.Budgets
import Reshape.Search.Event

/-! The counts of a search. -/
namespace Reshape

/-- The counts of one search, or of several together. -/
structure Report where
  generated : Nat
  admitted : Nat
  chains : Nat
  /-- Operators applied to a table. -/
  candidates : Nat
  /-- How often each operator did not apply, in the order of the first time. -/
  inapplicable : List (Operator × Nat)
  prunings : Nat
  finalChecks : Nat
  accepted : Nat
  /-- The nanoseconds spent on each size. -/
  sizes : List (Nat × Nat)
  elapsed : Nat
  timedOut : Bool
deriving DecidableEq, Repr

namespace Report

/-- Nothing has happened. -/
def empty : Report where
  generated := 0
  admitted := 0
  chains := 0
  candidates := 0
  inapplicable := []
  prunings := 0
  finalChecks := 0
  accepted := 0
  sizes := []
  elapsed := 0
  timedOut := false

/-- Counts an event. -/
def record (r : Report) : Event → Report
  | .size size => { r with sizes := Ordered.add size 0 r.sizes }
  | .sketches _ generated admitted =>
    { r with generated := r.generated + generated, admitted := r.admitted + admitted }
  | .chains count => { r with chains := r.chains + count }
  | .check => r
  | .pruned => { r with prunings := r.prunings + 1 }
  | .tried => { r with candidates := r.candidates + 1 }
  | .refused op => { r with inapplicable := Ordered.add op 1 r.inapplicable }
  | .found _ _ => r

/-- The counts of two searches together. -/
def union (a b : Report) : Report where
  generated := a.generated + b.generated
  admitted := a.admitted + b.admitted
  chains := a.chains + b.chains
  candidates := a.candidates + b.candidates
  inapplicable := Ordered.merge a.inapplicable b.inapplicable
  prunings := a.prunings + b.prunings
  finalChecks := a.finalChecks + b.finalChecks
  accepted := a.accepted + b.accepted
  sizes := Ordered.merge a.sizes b.sizes
  elapsed := a.elapsed + b.elapsed
  timedOut := a.timedOut || b.timedOut

/-- The lines of a report. -/
def lines (r : Report) : List String :=
  [s!"Sketches: {r.generated} generated, {r.admitted} admitted, {r.chains} premise chains",
    s!"Candidates: {r.candidates} evaluated, {r.prunings} pruned by premises, " ++
      s!"{r.finalChecks} final checks, {r.accepted} accepted"] ++
  (r.inapplicable.map fun (op, n) => s!"Operator {op.name}: inapplicable {n} times") ++
  (r.sizes.map fun (size, time) => s!"Size {size}: {secondsText time}s") ++
  [s!"Total: {secondsText r.elapsed}s" ++ if r.timedOut then " (time limit reached)" else ""]

/-- The text of a report. -/
def display (r : Report) : String := String.join (r.lines.map (· ++ "\n"))

end Report
end Reshape
