import Reshape.Proofs.RowSources
import Reshape.Requirement.Backward

/-! The requirements an operator hands down. Each is kept up to the sign of
zeros, which inclusion does not see, so one of the requirements handed down is
included in a table as soon as one of those listed with repetitions is. -/
namespace Reshape

namespace Number

theorem eq_of_bits {x y : Float} (same : x.toBits.toNat = y.toBits.toNat) : x = y := by
  obtain ⟨⟨bits⟩⟩ := x
  obtain ⟨⟨bits'⟩⟩ := y
  have encoded : bits = bits' := UInt64.toNat.inj same
  subst encoded
  rfl

/-- Nothing but the two zeros has the mantissa zero. -/
theorem zero_of_exact {x : Float} {negative : Bool} {exponent : Int}
    (zero : exact x = .finite negative 0 exponent) : x = 0 ∨ x = -0.0 := by
  have small : x.toBits.toNat < 2 ^ 64 := x.toBits.toNat_lt
  have encoded : x.toBits.toNat = 0 ∨ x.toBits.toNat = signBit := by
    rw [exact] at zero
    split_ifs at zero with special subnormal
    all_goals
      simp only [Exact.finite.injEq] at zero
      simp only [hiddenBit, signBit] at *
      omega
  rcases encoded with positive | negative
  · exact .inl (eq_of_bits (positive.trans (by decide +kernel)))
  · exact .inr (eq_of_bits (negative.trans (by decide +kernel)))

/-- The sign of zero does not reach five places. -/
theorem five_places_canonical (x : Float) : fivePlaces (canonical x) = fivePlaces x := by
  rw [canonical]
  split
  · rename_i zero
    rcases zero_of_exact zero with rfl | rfl
    · rfl
    · decide +kernel
  · rfl

end Number

@[simp] theorem Cell.key_canonical (cell : Cell) : cell.canonical.key = cell.key := by
  cases cell with
  | number x => exact congrArg Cell.number (Number.five_places_canonical x)
  | _ => rfl

namespace Table

theorem keys_canonical (t : Table) : t.canonical.keys = t.keys := by
  simp [keys, canonical, Row.key, Function.comp_def]

/-- Inclusion does not see the signs of zeros. -/
theorem included_of_canonical {r r' t : Table} (same : r'.canonical = r.canonical)
    (included : r.includedIn t = true) : r'.includedIn t = true := by
  obtain ⟨mapping, found⟩ := included_in_iff.mp included
  have columns : r'.columns = r.columns := (congrArg Table.columns same :)
  have keys : r'.keys = r.keys := by rw [← keys_canonical, same, keys_canonical]
  refine included_of_subperm ?_ found.different found.inRange (keys ▸ found.subperm)
  rw [found.total, width, width, columns]

end Table

namespace Operator

variable {op : Operator} {required r t : Table} {outermost : Bool}

private theorem backward_of_listed
    (listed : r ∈ (if op.passesOn && !outermost then [required] else []) ++ op.undone required)
    (included : r.includedIn t = true) :
    ∃ r' ∈ op.backward required outermost, r'.includedIn t = true := by
  obtain ⟨r', first, same⟩ := firsts_by_represent Table.canonical listed
  exact ⟨r', first, Table.included_of_canonical same included⟩

/-- An undone requirement is handed down, whether or not the operator is the
outermost one. -/
theorem backward_of_undone (undone : r ∈ op.undone required) (included : r.includedIn t = true) :
    ∃ r' ∈ op.backward required outermost, r'.includedIn t = true :=
  backward_of_listed (List.mem_append_right _ undone) included

/-- An operator that passes its table on hands the requirement itself down,
unless it is the outermost one. -/
theorem backward_of_kept (passes : op.passesOn = true) (inner : outermost = false)
    (included : required.includedIn t = true) :
    ∃ r' ∈ op.backward required outermost, r'.includedIn t = true :=
  backward_of_listed (List.mem_append_left _ (by simp [passes, inner])) included

end Operator
end Reshape
