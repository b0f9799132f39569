import Reshape.Proofs.DomainCompleteness

/-! Programs that are equal in value. They differ at most in the sign of zeros
among their constants. No step sees that: comparisons do not, and a constant in
the name of a column is written without it. So programs of equal value have the
same output, and the search offers them the same arguments. -/
namespace Reshape

theorem Number.canonical_canonical (x : Float) : canonical (canonical x) = canonical x := by
  have either : canonical x = 0 ∨ canonical x = x := by
    rw [canonical]
    split
    · exact .inl rfl
    · exact .inr rfl
  rcases either with zero | same
  · rw [zero]
    rfl
  · rw [same, same]

theorem Cell.display_canonical (cell : Cell) : cell.canonical.display = cell.display := by
  cases cell with
  | number x => exact congrArg Number.positional (Number.canonical_canonical x)
  | text s | boolean b => rfl

namespace Table

variable {t out : Table} {column : Nat} {op : Comparison} {constant : Cell}

theorem filter_canonical :
    t.filter column op constant.canonical = .ok out ↔ t.filter column op constant = .ok out := by
  simp only [filter_eq_ok, Cell.kind_canonical, Comparison.holds_canonical]

theorem mutate_custom_canonical :
    t.mutateCustom column op constant.canonical = .ok out ↔
      t.mutateCustom column op constant = .ok out := by
  simp only [mutate_custom_eq_ok, Cell.kind_canonical, Cell.display_canonical,
    Comparison.holds_canonical]

end Table

namespace Step

variable {step : Step} {position width : Nat}

theorem argument_canonical :
    step.canonical.argument? position = (step.argument? position).map Argument.canonical := by
  cases position with
  | zero => rfl
  | succ index => exact List.getElem?_map

theorem required_canonical :
    step.canonical.required position = (step.required position).map Argument.canonical := by
  rw [required, required, argument_canonical]
  cases step.argument? position with
  | none => rfl
  | some argument => cases argument <;> rfl

/-- Whatever takes arguments of equal value alike takes the same from steps of
equal value. -/
theorem required_bind_canonical {α : Type} {take : Argument → Except EvalError α}
    (blind : ∀ argument, take argument.canonical = take argument) :
    (step.canonical.required position >>= take) = (step.required position >>= take) := by
  rw [required_canonical]
  cases step.required position with
  | error e => rfl
  | ok argument => exact blind argument

theorem take_column_canonical :
    step.canonical.takeColumn position width = step.takeColumn position width :=
  required_bind_canonical fun argument => by cases argument <;> rfl

theorem take_columns_canonical :
    step.canonical.takeColumns position width = step.takeColumns position width :=
  required_bind_canonical fun argument => by cases argument <;> rfl

theorem take_target_canonical :
    step.canonical.takeTarget position width = step.takeTarget position width :=
  required_bind_canonical fun argument => by cases argument <;> rfl

theorem take_comparison_canonical :
    step.canonical.takeComparison position = step.takeComparison position :=
  required_bind_canonical fun argument => by cases argument <;> rfl

theorem take_arithmetic_canonical :
    step.canonical.takeArithmetic position = step.takeArithmetic position :=
  required_bind_canonical fun argument => by cases argument <;> rfl

theorem take_aggregate_canonical :
    step.canonical.takeAggregate position = step.takeAggregate position :=
  required_bind_canonical fun argument => by cases argument <;> rfl

theorem take_constant_canonical :
    step.canonical.takeConstant position = (step.takeConstant position).map Cell.canonical := by
  rw [takeConstant, takeConstant, required_canonical]
  cases step.required position with
  | error e => rfl
  | ok argument => cases argument <;> rfl

theorem take_text_canonical : step.canonical.takeText position = step.takeText position := by
  rw [takeText, takeText, take_constant_canonical]
  cases step.takeConstant position with
  | error e => rfl
  | ok cell => cases cell <;> rfl

/-- Steps of equal value make the same of a table. Only what a refusal tells
may differ: it shows the constant itself. -/
theorem apply_canonical {t out : Table} :
    step.canonical.apply t = .ok out ↔ step.apply t = .ok out := by
  have same : step.canonical.operator = step.operator := rfl
  rw [apply, apply, same]
  split <;>
    simp only [bind_eq_ok, refusing, map_error_eq_ok, map_eq_ok, take_column_canonical,
      take_columns_canonical, take_target_canonical, take_comparison_canonical,
      take_arithmetic_canonical, take_aggregate_canonical, take_constant_canonical,
      take_text_canonical, exists_exists_and_eq_and, Table.filter_canonical,
      Table.mutate_custom_canonical]

theorem column_here_canonical :
    step.canonical.columnHere position width = step.columnHere position width := by
  rw [columnHere, columnHere, argument_canonical]
  cases step.argument? position with
  | none => rfl
  | some argument => cases argument <;> rfl

/-- Behind arguments of equal value the same arguments are offered. -/
theorem domain_canonical {t : Table} {config : Config} :
    step.canonical.domain position t config = step.domain position t config := by
  have same : step.canonical.operator = step.operator := rfl
  simp only [domain, same, column_here_canonical, argument_canonical]
  cases op : step.operator with
  -- Besides columns, domains look at groups, at what is summed and at arithmetic.
  | groupSum =>
    rcases position with _ | _ | _ | _ | _
    · rfl
    · rfl
    · cases step.argument? 1 with
      | none => rfl
      | some argument => cases argument <;> rfl
    · cases step.argument? 2 with
      | none => rfl
      | some argument => cases argument <;> rfl
    · rfl
  | mutate =>
    rcases position with _ | _ | _ | _ | _
    · rfl
    · rfl
    · rfl
    · cases step.argument? 2 with
      | none => rfl
      | some argument => cases argument <;> rfl
    · rfl
  | _ => rcases position with _ | _ | _ | _ | _ <;> rfl

end Step

variable {inputs : List Table} {input : Nat} {t : Table}

theorem eval_steps_canonical (steps : List Step) :
    evalSteps inputs input (steps.map Step.canonical) = .ok t ↔
      evalSteps inputs input steps = .ok t := by
  induction steps generalizing t with
  | nil => exact .rfl
  | cons step rest ih =>
    simp only [List.map_cons, evalSteps, bind_eq_ok, ih, Step.apply_canonical]

/-- Steps of equal value have the same output. -/
theorem eval_steps_congr {steps steps' : List Step}
    (same : steps'.map Step.canonical = steps.map Step.canonical) :
    evalSteps inputs input steps' = .ok t ↔ evalSteps inputs input steps = .ok t := by
  rw [← eval_steps_canonical, same, eval_steps_canonical]

end Reshape
