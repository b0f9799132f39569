import Mathlib.Data.List.Nodup
import Mathlib.Data.List.Perm.Lattice
import Reshape.Choice

/-! What is chosen: the choices of `k` elements of a list are its sublists of
that length. -/
namespace Reshape

open scoped List

variable {α : Type}

theorem mem_choose_iff {k : Nat} {l chosen : List α} :
    chosen ∈ choose k l ↔ chosen <+ l ∧ chosen.length = k := by
  induction l generalizing k chosen with
  | nil =>
    cases k with
    | zero => simp [choose]
    | succ k =>
      simp only [choose, List.not_mem_nil, List.sublist_nil, false_iff, not_and]
      rintro rfl
      simp
  | cons x xs ih =>
    cases k with
    | zero => simp +contextual [choose, List.length_eq_zero_iff]
    | succ k =>
      simp only [choose, List.mem_append, List.mem_map, ih, List.sublist_cons_iff, or_and_right]
      rw [or_comm]
      refine or_congr_right ⟨?_, ?_⟩
      · rintro ⟨rest, ⟨sub, rfl⟩, rfl⟩
        exact ⟨⟨rest, rfl, sub⟩, rfl⟩
      · rintro ⟨⟨rest, rfl, sub⟩, size⟩
        exact ⟨rest, ⟨sub, Nat.succ.inj size⟩, rfl⟩

/-- Numbers with a property are one of the choices of their size. -/
theorem filter_mem_combinations (n : Nat) (p : Nat → Bool) :
    (List.range n).filter p ∈ combinations n ((List.range n).filter p).length :=
  mem_choose_iff.mpr ⟨List.filter_sublist, rfl⟩

/-- Different numbers in range are the numbers in range among them, put in
order. -/
theorem filter_mem_perm {n : Nat} {columns : List Nat} (different : columns.Nodup)
    (inRange : ∀ c ∈ columns, c < n) : (List.range n).filter (· ∈ columns) ~ columns := by
  refine (List.perm_ext_iff_of_nodup (List.nodup_range.filter _) different).mpr fun c => ?_
  simpa using inRange c

end Reshape
