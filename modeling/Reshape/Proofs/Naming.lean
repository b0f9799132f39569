import Mathlib.Data.List.Dedup
import Mathlib.Data.List.Perm.Subperm
import Reshape.Text.Names

/-! What a naming arena promises. A hint with different numbers behind it makes
different names, so among one more of them than there are taken names one is
free, and the search for it stops there. Every name handed out is therefore
new, and the names of one claim are different from each other. -/
namespace Reshape.Text.Names

theorem numbered_injective (hint : String) : Function.Injective (numbered hint) := by
  intro m n same
  have digits : Nat.toDigits 10 m = Nat.toDigits 10 n := by
    have lists := congrArg String.toList same
    simpa [numbered] using lists
  rw [← Nat.ofDigitChars_ten_toDigits (n := m), digits, Nat.ofDigitChars_ten_toDigits]

/-- The search ends at a free name, or has found every name that it tried
taken. -/
theorem first_free_or_taken (hint : String) (taken : List String) (tries n : Nat) :
    numbered hint (firstFree hint taken tries n) ∉ taken ∨
      firstFree hint taken tries n = n + tries ∧ ∀ k < tries, numbered hint (n + k) ∈ taken := by
  induction tries generalizing n with
  | zero => exact .inr ⟨rfl, nofun⟩
  | succ tries ih =>
    rw [firstFree]
    split
    · rename_i here
      rcases ih (n + 1) with free | ⟨last, all⟩
      · exact .inl free
      · refine .inr ⟨by omega, fun k inside => ?_⟩
        cases k with
        | zero => exact here
        | succ k =>
          rw [Nat.add_comm k, ← Nat.add_assoc]
          exact all k (Nat.lt_of_succ_lt_succ inside)
    · rename_i free
      exact .inl free

/-- A hint with numbers in a row behind it makes different names, so only as many of
them are taken as there are different names that are. -/
theorem taken_in_a_row {hint : String} {taken : List String} {n m : Nat}
    (all : ∀ k < m, numbered hint (n + k) ∈ taken) : m ≤ taken.dedup.length := by
  let tried := (List.range m).map fun k => numbered hint (n + k)
  have different : tried.Nodup :=
    List.nodup_range.map fun j k same => Nat.add_left_cancel (numbered_injective hint same)
  have inside : tried ⊆ taken.dedup := by
    intro name member
    obtain ⟨k, within, rfl⟩ := List.mem_map.mp member
    exact List.mem_dedup.mpr (all k (List.mem_range.mp within))
  simpa [tried] using (different.subperm inside).length_le

/-- As many tries as there are taken names suffice. -/
theorem first_free_not_taken (hint : String) (taken : List String) (n : Nat) :
    numbered hint (firstFree hint taken taken.length n) ∉ taken := by
  rcases first_free_or_taken hint taken taken.length n with free | ⟨last, all⟩
  · exact free
  · -- With the last one too, more different names would be taken than there are.
    intro again
    rw [last] at again
    have row : ∀ k < taken.length + 1, numbered hint (n + k) ∈ taken := by
      intro k within
      rcases Nat.lt_succ_iff_lt_or_eq.mp within with less | rfl
      · exact all k less
      · exact again
    have fits := taken_in_a_row row
    have distinct := taken.dedup_sublist.length_le
    omega

/-- A claimed name is new. -/
theorem claim_not_taken (names : Names) (hint : String) :
    (names.claim hint).1 ∉ names.taken := by
  rw [claim]
  split
  · exact first_free_not_taken hint names.taken names.count
  · rename_i free
    exact free

/-- From then on it is taken, besides those that were taken before. -/
theorem claim_taken (names : Names) (hint : String) :
    (names.claim hint).2.taken = (names.claim hint).1 :: names.taken := by
  rw [claim]
  split <;> rfl

/-- Names claimed one after the other are new and different. -/
theorem claim_all_distinct (names : Names) (hints : List String) :
    (names.claimAll hints).1.Nodup ∧ ∀ name ∈ (names.claimAll hints).1, name ∉ names.taken := by
  induction hints generalizing names with
  | nil => exact ⟨List.nodup_nil, nofun⟩
  | cons hint rest ih =>
    obtain ⟨different, new⟩ := ih (names.claim hint).2
    rw [claim_taken] at new
    simp only [List.mem_cons, not_or] at new
    refine ⟨List.nodup_cons.mpr ⟨fun again => (new _ again).1 rfl, different⟩, ?_⟩
    intro name member
    rcases List.mem_cons.mp member with rfl | later
    · exact claim_not_taken names hint
    · exact (new name later).2

/-- Different hints that are free are all handed out as they are. -/
theorem claim_all_free {names : Names} {hints : List String} (different : hints.Nodup)
    (free : ∀ hint ∈ hints, hint ∉ names.taken) : (names.claimAll hints).1 = hints := by
  induction hints generalizing names with
  | nil => rfl
  | cons hint rest ih =>
    obtain ⟨apart, different⟩ := List.nodup_cons.mp different
    obtain ⟨here, later⟩ := List.forall_mem_cons.mp free
    have claimed : names.claim hint = (hint, names.reserve hint) := if_neg here
    have others : ∀ other ∈ rest, other ∉ (names.reserve hint).taken := by
      intro other member taken
      rcases List.mem_cons.mp taken with rfl | before
      · exact apart member
      · exact later other member before
    rw [claimAll, claimed]
    exact congrArg (hint :: ·) (ih different others)

end Reshape.Text.Names
