import Mathlib.Data.List.Basic
import Reshape.Sketch

/-! The rules that let a sequence of operators into the search, as conditions
that can be used one by one, and what is left of them when all but one hold. -/
namespace Reshape

/-- The rules for a sequence of operators, the outermost first. -/
structure Admissible (operators : List Operator) (context : Context) : Prop where
  outside : ∀ op ∈ operators, op ≠ .select ∧ op ≠ .filter
  outermost : ∀ op ∈ operators.tail, op ≠ .groupSum ∧ op ≠ .mutateCustom
  gathering : (operators.filter Operator.gathers).length ≤ 1
  appending : (operators.filter Operator.appends).length ≤ 1
  once : repeats (· = .separate) operators = false
  separable : .separate ∈ operators → context.hasSeparator = true
  creating : context.newValues = true → ∃ op ∈ operators, op.createsValues = true

variable {operators : List Operator} {context : Context}

theorem repeats_eq_false_iff {mayRepeat : Operator → Bool} :
    repeats mayRepeat operators = false ↔ (operators.filter fun op => !mayRepeat op).Nodup := by
  induction operators with
  | nil => simp [repeats]
  | cons op rest ih =>
    rw [repeats, Bool.or_eq_false_iff, ih, List.filter_cons]
    by_cases free : mayRepeat op = true
    · simp [free]
    · simp [free]

theorem is_admissible_iff :
    isAdmissible operators context = true ↔ Admissible operators context := by
  simp only [isAdmissible, Bool.and_eq_true, Bool.or_eq_true, Bool.not_eq_true',
    List.any_eq_false, List.any_eq_true, decide_eq_true_eq, not_or]
  constructor
  · rintro ⟨⟨⟨⟨⟨⟨outside, outermost⟩, gathering⟩, appending⟩, once⟩, separable⟩, creating⟩
    exact ⟨outside, outermost, gathering, appending, once,
      fun held => separable.resolve_right (not_not_intro held),
      fun new => creating.resolve_left (by simp [new])⟩
  · rintro ⟨outside, outermost, gathering, appending, once, separable, creating⟩
    refine ⟨⟨⟨⟨⟨⟨outside, outermost⟩, gathering⟩, appending⟩, once⟩, ?_⟩, ?_⟩
    · exact or_iff_not_imp_right.mpr fun held => separable (not_not.mp held)
    · exact or_iff_not_imp_left.mpr fun new => creating (by simpa using new)

/-- What is turned away for new values alone creates no values. -/
theorem creates_nothing_of_rejected
    (otherwise : isAdmissible operators { context with newValues := false } = true)
    (rejected : isAdmissible operators context = false) :
    ∀ op ∈ operators, op.createsValues = false := by
  have rules := is_admissible_iff.mp otherwise
  have fails : ¬ Admissible operators context := by simp [← is_admissible_iff, rejected]
  intro op held
  by_contra creates
  exact fails { rules with creating := fun _ => ⟨op, held, by simpa using creates⟩ }

/-- What is turned away for its lack of a separator alone separates. -/
theorem separates_of_rejected
    (otherwise : isAdmissible operators { context with hasSeparator := true } = true)
    (rejected : isAdmissible operators context = false) : .separate ∈ operators := by
  have rules := is_admissible_iff.mp otherwise
  have fails : ¬ Admissible operators context := by simp [← is_admissible_iff, rejected]
  by_contra absent
  exact fails { rules with separable := fun held => absurd held absent }

end Reshape
