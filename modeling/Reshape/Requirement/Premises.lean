import Reshape.Program.Basic
import Reshape.Requirement.Backward

/-! The requirements that a target puts on every part of a chain of operators.
They form a tree, as each one may be met in several ways below. The tree is
kept as a store in which every requirement points to the one it comes from, so
that ways with a common beginning share it. A way from the target down to the
input table is a chain of premises, one for each depth. -/
namespace Reshape

/-- The part of a program `depth` steps below the outermost one has to include
this table. -/
structure Obligation where
  target : Table
  depth : Nat
  parent : Option Nat
deriving DecidableEq, Repr

/-- The path to the part in question. -/
def Obligation.path (o : Obligation) : List Nat := List.replicate o.depth 0

/-- All requirements of one sketch by number, and the numbers of those on the
input table, in the order in which they were found. -/
structure Premises where
  obligations : Array Obligation
  leaves : Array Nat
deriving Repr

namespace Premises

/-- Adds a requirement on the chain of operators that is left, and then all
that follows from it. -/
def expand : (operators : List Operator) → Obligation → Premises → Premises
  | [], o, store => ⟨store.obligations.push o, store.leaves.push store.obligations.size⟩
  | op :: rest, o, store =>
    let id := store.obligations.size
    (op.backward o.target (o.depth = 0)).foldl
      (fun store target => expand rest ⟨target, o.depth + 1, some id⟩ store)
      ⟨store.obligations.push o, store.leaves⟩

/-- The requirements of a target on a chain of operators. -/
def build (operators : List Operator) (target : Table) : Premises :=
  expand operators ⟨target, 0, none⟩ ⟨#[], #[]⟩

/-- A requirement's number behind the numbers of those it comes from, at most
`length` in all. -/
def ancestry (store : Premises) : (length : Nat) → (id : Nat) → List Nat
  | 0, _ => []
  | length + 1, id =>
    match store.obligations[id]? with
    | none => []
    | some o =>
      match o.parent with
      | none => [id]
      | some parent => store.ancestry length parent ++ [id]

/-- The ways from the target to the input table, as numbers. Parents have
smaller numbers, so a number bounds the length of its ancestry. -/
def chainIds (store : Premises) : List (List Nat) :=
  store.leaves.toList.map fun id => store.ancestry (id + 1) id

/-- The ways from the target to the input table, as requirements by depth. -/
def chains (store : Premises) : List (List Obligation) :=
  store.chainIds.map fun ids => ids.filterMap (store.obligations[·]?)

end Premises
end Reshape
