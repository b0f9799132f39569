import Reshape.Program.Evaluation

/-! What happens in a search, in the order in which it happens. The search
itself knows nothing of clocks, limits and counts: it reports its events, and
whoever listens decides whether it goes on. -/
namespace Reshape

/-- An event of a search. -/
inductive Event where
  /-- Programs of this size are next. -/
  | size (size : Nat)
  /-- So many sketches there are of this size, and so many are worth searching. -/
  | sketches (size generated admitted : Nat)
  /-- A sketch is next for which there are so many chains of premises. -/
  | chains (count : Nat)
  /-- A point at which the search may run out of time. -/
  | check
  /-- A premise, or the kinds of columns it calls for, are not met. -/
  | pruned
  /-- An operator with all its arguments is about to be applied. -/
  | tried
  /-- The operator did not apply. -/
  | refused (op : Operator)
  /-- A program that meets every premise of its chain, and its value. -/
  | found (program : Program) (value : Table)

end Reshape
