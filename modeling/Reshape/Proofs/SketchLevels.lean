import Mathlib.Data.List.Basic
import Reshape.Sketch

/-! The levels of sketches in closed form. Level `n` is what `n` rounds of
wrapping make of the references to the inputs, whatever was asked of the store
before; and it holds just the chains of `n` configured operators over the
inputs. -/
namespace Reshape

/-- The sketches of a size, each operator being put around all smaller ones. -/
def sketchesOf (operators : List Operator) (inputs : Nat) : (size : Nat) → List Program
  | 0 => (List.range inputs).map fun i => ⟨i, []⟩
  | size + 1 => Levels.wrap operators (sketchesOf operators inputs size)

theorem Program.sketch_operators (operators : List Operator) (input : Nat) :
    (Program.sketch operators input).operators = operators := by
  simp [Program.sketch, Program.operators, Step.sketch, Function.comp_def]

theorem mem_wrap {operators : List Operator} {inner : List Program} {p : Program} :
    p ∈ Levels.wrap operators inner ↔ ∃ op ∈ operators, ∃ q ∈ inner,
      p = ⟨q.input, Step.sketch op :: q.steps⟩ := by
  simp [Levels.wrap, eq_comm]

/-- A level holds the chains of configured operators of its length. -/
theorem mem_sketches_of {operators : List Operator} {inputs size : Nat} {p : Program} :
    p ∈ sketchesOf operators inputs size ↔ ∃ chain : List Operator, ∃ input < inputs,
      chain.length = size ∧ (∀ op ∈ chain, op ∈ operators) ∧ p = Program.sketch chain input := by
  induction size generalizing p with
  | zero =>
    simp only [sketchesOf, List.mem_map, List.mem_range]
    constructor
    · rintro ⟨i, inside, rfl⟩
      exact ⟨[], i, inside, rfl, by simp, rfl⟩
    · rintro ⟨chain, input, inside, empty, -, rfl⟩
      obtain rfl := List.eq_nil_of_length_eq_zero empty
      exact ⟨input, inside, rfl⟩
  | succ size ih =>
    simp only [sketchesOf, mem_wrap, ih]
    constructor
    · rintro ⟨op, allowed, q, ⟨chain, input, inside, length, every, rfl⟩, rfl⟩
      exact ⟨op :: chain, input, inside, by simp [length],
        List.forall_mem_cons.mpr ⟨allowed, every⟩, rfl⟩
    · rintro ⟨chain, input, inside, length, every, rfl⟩
      cases chain with
      | nil => cases length
      | cons op chain =>
        obtain ⟨allowed, every⟩ := List.forall_mem_cons.mp every
        exact ⟨op, allowed, _, ⟨chain, input, inside, by simpa using length, every, rfl⟩, rfl⟩

namespace Levels

/-- The store holds some of the first levels, the references at least. -/
structure Built (operators : List Operator) (inputs : Nat) (levels : Levels) : Prop where
  operators_eq : levels.operators = operators
  nonempty : 0 < levels.built.size
  level_eq : ∀ (n : Nat) (inside : n < levels.built.size),
    levels.built[n] = sketchesOf operators inputs n

variable {operators : List Operator} {inputs : Nat} {levels : Levels}

theorem start_built (operators : List Operator) (inputs : Nat) :
    (start operators inputs).Built operators inputs := by
  refine ⟨rfl, by simp [start], ?_⟩
  intro n inside
  obtain rfl : n = 0 := by simpa [start] using inside
  rfl

/-- Building more levels keeps those that are there and adds as many. -/
theorem grow_built (built : levels.Built operators inputs) (count : Nat) :
    (levels.grow count).Built operators inputs ∧
      (levels.grow count).built.size = levels.built.size + count := by
  induction count generalizing levels with
  | zero => exact ⟨built, rfl⟩
  | succ count ih =>
    have last : levels.built.back?.getD [] =
        sketchesOf operators inputs (levels.built.size - 1) := by
      have inside : levels.built.size - 1 < levels.built.size := by
        have := built.nonempty
        omega
      rw [Array.back?, Array.getElem?_eq_getElem inside, Option.getD_some, built.level_eq _ inside]
    have next : Built operators inputs { levels with
        built := levels.built.push (wrap levels.operators (levels.built.back?.getD [])) } := by
      refine ⟨built.operators_eq, by simp, ?_⟩
      intro n inside
      rw [Array.getElem_push]
      split
      · exact built.level_eq n _
      · have top : n = levels.built.size := by
          simp only [Array.size_push] at inside
          omega
        obtain ⟨below, rfl⟩ : ∃ below, n = below + 1 :=
          Nat.exists_eq_add_one.mpr (top ▸ built.nonempty)
        rw [last, built.operators_eq, sketchesOf, ← top, Nat.add_sub_cancel]
    obtain ⟨grown, size⟩ := ih next
    refine ⟨grown, size.trans ?_⟩
    simp only [Array.size_push]
    omega

/-- Asking for a level answers it, and keeps the store. -/
theorem level_spec (built : levels.Built operators inputs) (size : Nat) :
    (levels.level size).1 = sketchesOf operators inputs size ∧
      (levels.level size).2.Built operators inputs := by
  obtain ⟨grown, count⟩ := grow_built built (size + 1 - levels.built.size)
  have inside : size < (levels.grow (size + 1 - levels.built.size)).built.size := by omega
  refine ⟨?_, grown⟩
  rw [level, Array.getElem?_eq_getElem inside, Option.getD_some]
  exact grown.level_eq size inside

theorem admissible_spec (built : levels.Built operators inputs) (size : Nat) (context : Context) :
    (levels.admissible size context).1 =
        (sketchesOf operators inputs size).filter (fun p => isAdmissible p.operators context) ∧
      (levels.admissible size context).2.Built operators inputs := by
  obtain ⟨all, kept⟩ := level_spec built size
  exact ⟨by rw [admissible, ← all], kept⟩

end Levels
end Reshape
