import Mathlib.Algebra.Group.Nat.Defs
import Mathlib.Data.List.FinRange
import Reshape.Proofs.SketchLevels

/-! The order of sketches. A sketch of a level has an address: where each of its
operators stands in the list of operators, the outermost first, and the input.
A level lists the sketches at all addresses of its length in lexicographic order,
and a store of levels answers with them whatever it has been asked before. -/
namespace Reshape

/-- Places in the list of operators, the outermost operator's first, and an
input. -/
structure Address (operators : List Operator) (inputs : Nat) where
  places : List (Fin operators.length)
  input : Fin inputs

variable {operators : List Operator} {inputs : Nat}

namespace Address

/-- The operators at an address, the outermost first. -/
def chain (a : Address operators inputs) : List Operator := a.places.map operators.get

/-- The sketch at an address. -/
def sketch (a : Address operators inputs) : Program := .sketch a.chain a.input

/-- An operator put around the ones at an address. -/
def around (place : Fin operators.length) (a : Address operators inputs) :
    Address operators inputs := ⟨place :: a.places, a.input⟩

/-- Lexicographic order: the outermost operator counts first, then those beneath
it, and the input last. -/
def Precedes (a b : Address operators inputs) : Prop :=
  a.places < b.places ∨ a.places = b.places ∧ a.input < b.input

end Address

/-- The addresses of a size. -/
def addresses (operators : List Operator) (inputs : Nat) :
    (size : Nat) → List (Address operators inputs)
  | 0 => (List.finRange inputs).map fun input => ⟨[], input⟩
  | size + 1 => (List.finRange operators.length).flatMap fun place =>
    (addresses operators inputs size).map (Address.around place)

theorem mem_addresses {size : Nat} {a : Address operators inputs} :
    a ∈ addresses operators inputs size ↔ a.places.length = size := by
  obtain ⟨places, input⟩ := a
  induction size generalizing places with
  | zero => simp [addresses, eq_comm]
  | succ size ih =>
    cases places with
    | nil => simp [addresses, Address.around]
    | cons place places =>
      simp only [addresses, List.mem_flatMap, List.mem_finRange, true_and, List.mem_map,
        Address.around, Address.mk.injEq, List.cons.injEq, List.length_cons, Nat.add_right_cancel_iff]
      constructor
      · rintro ⟨_, ⟨inner, _⟩, member, ⟨rfl, rfl⟩, rfl⟩
        exact (ih inner).mp member
      · intro length
        exact ⟨place, _, (ih places).mpr length, ⟨rfl, rfl⟩, rfl⟩

theorem addresses_length (operators : List Operator) (inputs size : Nat) :
    (addresses operators inputs size).length = inputs * operators.length ^ size := by
  induction size with
  | zero => simp [addresses]
  | succ size ih =>
    simp [addresses, List.length_flatMap, ih, Nat.pow_succ, Nat.mul_comm, Nat.mul_left_comm]

theorem addresses_sorted (operators : List Operator) (inputs size : Nat) :
    (addresses operators inputs size).Pairwise Address.Precedes := by
  induction size with
  | zero =>
    rw [addresses, List.pairwise_map]
    exact (List.pairwise_lt_finRange inputs).imp fun less => .inr ⟨rfl, less⟩
  | succ size ih =>
    rw [addresses, List.pairwise_flatMap]
    constructor
    · intro place _
      rw [List.pairwise_map]
      refine ih.imp fun before => ?_
      exact before.imp List.cons_lt_cons_self.mpr (And.imp_left (congrArg (place :: ·)))
    · refine (List.pairwise_lt_finRange operators.length).imp fun less a left b right => ?_
      obtain ⟨inner, -, rfl⟩ := List.mem_map.mp left
      obtain ⟨inner', -, rfl⟩ := List.mem_map.mp right
      exact .inl (List.cons_lt_cons_iff.mpr (.inl less))

theorem Address.precedes_irrefl (a : Address operators inputs) : ¬ a.Precedes a := by
  rintro (less | ⟨-, less⟩)
  · exact List.lt_irrefl _ less
  · exact lt_irrefl _ less

/-- A level holds the sketches at the addresses of its size. -/
theorem sketches_of_eq (operators : List Operator) (inputs size : Nat) :
    sketchesOf operators inputs size = (addresses operators inputs size).map Address.sketch := by
  induction size with
  | zero =>
    rw [sketchesOf, addresses, ← List.map_coe_finRange_eq_range, List.map_map, List.map_map]
    rfl
  | succ size ih =>
    rw [sketchesOf, ih, Levels.wrap, addresses, List.map_flatMap]
    calc operators.flatMap (fun op => ((addresses operators inputs size).map Address.sketch).map
            fun p => { p with steps := Step.sketch op :: p.steps })
        = ((List.finRange operators.length).map operators.get).flatMap (fun op =>
            ((addresses operators inputs size).map Address.sketch).map
              fun p => { p with steps := Step.sketch op :: p.steps }) := by
          rw [List.map_get_finRange]
      _ = (List.finRange operators.length).flatMap fun place =>
            ((addresses operators inputs size).map (Address.around place)).map Address.sketch := by
          rw [List.flatMap_map]
          refine List.flatMap_congr fun place _ => ?_
          rw [List.map_map, List.map_map]
          rfl

theorem admissible_sketches_eq (operators : List Operator) (inputs size : Nat)
    (context : Context) :
    (sketchesOf operators inputs size).filter (fun p => isAdmissible p.operators context) =
      ((addresses operators inputs size).filter fun a => isAdmissible a.chain context).map
        Address.sketch := by
  rw [sketches_of_eq, List.filter_map]
  refine congrArg _ (List.filter_congr fun a _ => ?_)
  rw [Function.comp_apply, Address.sketch, Program.sketch_operators]

namespace Levels

/-- What a store of levels can be asked for. -/
inductive Request where
  | level (size : Nat)
  | admissible (size : Nat) (context : Context)

/-- The answer to a request, and the store after it. -/
def answer (levels : Levels) : Request → List Program × Levels
  | .level size => levels.level size
  | .admissible size context => levels.admissible size context

/-- The answers to requests that come one after the other. -/
def answers : Levels → List Request → List (List Program)
  | _, [] => []
  | levels, request :: rest =>
    (levels.answer request).1 :: (levels.answer request).2.answers rest

/-- The answer that a request calls for: the sketches at all addresses of the
size, or those of them whose operators are admissible. -/
def Request.due (operators : List Operator) (inputs : Nat) : Request → List Program
  | .level size => (addresses operators inputs size).map Address.sketch
  | .admissible size context =>
    ((addresses operators inputs size).filter fun a => isAdmissible a.chain context).map
      Address.sketch

theorem answer_spec {levels : Levels} (built : levels.Built operators inputs) (request : Request) :
    (levels.answer request).1 = request.due operators inputs ∧
      (levels.answer request).2.Built operators inputs := by
  cases request with
  | level size =>
    obtain ⟨all, kept⟩ := level_spec built size
    exact ⟨all.trans (sketches_of_eq operators inputs size), kept⟩
  | admissible size context =>
    obtain ⟨admitted, kept⟩ := admissible_spec built size context
    exact ⟨admitted.trans (admissible_sketches_eq operators inputs size context), kept⟩

/-- Each answer leaves a store that holds first levels, so the next one is right
too. -/
theorem answers_eq {levels : Levels} (built : levels.Built operators inputs)
    (requests : List Request) :
    levels.answers requests = requests.map (Request.due operators inputs) := by
  induction requests generalizing levels with
  | nil => rfl
  | cons request rest ih =>
    obtain ⟨answer, kept⟩ := answer_spec built request
    rw [answers, answer, ih kept, List.map_cons]

/-- **Levels are complete and answers do not depend on what was asked before.** A
level lists the sketches at all addresses of its size, each of them once and in
lexicographic order, with as many arguments as each operator takes and every one
of them open. Whatever a new store is asked for,
in whatever order, it answers each request with the level, or with those of its
sketches whose operators are admissible. -/
theorem answers_are_levels (operators : List Operator) (inputs : Nat) :
    (∀ size, (∀ a : Address operators inputs,
          a ∈ addresses operators inputs size ↔ a.places.length = size) ∧
        (addresses operators inputs size).Nodup ∧
        (addresses operators inputs size).Pairwise Address.Precedes ∧
        (addresses operators inputs size).length = inputs * operators.length ^ size) ∧
      (∀ a : Address operators inputs, a.sketch.operators = a.places.map operators.get ∧
        a.sketch.input = a.input ∧
        ∀ step ∈ a.sketch.steps, step.arguments.length = step.operator.arity ∧
          ∀ argument ∈ step.arguments, argument = .hole) ∧
      ∀ requests, (start operators inputs).answers requests =
        requests.map (Request.due operators inputs) := by
  refine ⟨fun size => ⟨fun a => mem_addresses, ?_, addresses_sorted _ _ _, addresses_length _ _ _⟩,
    fun a => ⟨Program.sketch_operators _ _, rfl, fun step member => ?_⟩, answers_eq (start_built _ _)⟩
  · refine List.Pairwise.imp ?_ (addresses_sorted operators inputs size)
    rintro a _ before rfl
    exact a.precedes_irrefl before
  · obtain ⟨op, -, rfl⟩ := List.mem_map.mp member
    exact ⟨List.length_replicate, fun argument held => List.eq_of_mem_replicate held⟩

end Levels
end Reshape
