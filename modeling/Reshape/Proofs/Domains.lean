import Reshape.Program.Domain
import Reshape.Proofs.Application

/-! What domains offer. A step has a domain for each of its positions and for no
other, and most read nothing but the table. The others go by an argument that
stands before them: a column in range, the group columns, what is summed up, or
the arithmetic. Here these cases get a name each, so what holds of all domains
is shown case by case. -/
namespace Reshape.Step

variable {step : Step} {t : Table} {config : Config} {position : Nat} {values : List Argument}

/-- The ways in which a step offers arguments for a position. -/
inductive Offered (step : Step) (t : Table) (config : Config) : Nat → List Argument → Prop
  | columnLists (op : step.operator = .select ∨ step.operator = .groupSum) :
    Offered step t config 1 ((columnChoices t.width t.width).map Argument.columns)
  | everyColumn (op : step.operator = .unite ∨ step.operator = .filter ∨
      step.operator = .spread ∨ step.operator = .mutateCustom) :
    Offered step t config 1 (t.positions.map Argument.column)
  | laterColumns {left : Nat} (op : step.operator = .unite)
      (here : step.columnHere 1 t.width = .ok left) :
    Offered step t config 2 ((t.positions.filter (left < ·)).map Argument.column)
  | separator (op : step.operator = .unite) :
    Offered step t config 3 [.constant (.text (.ofList [Text.uniteSeparator]))]
  | comparisons {c : Nat} (op : step.operator = .filter ∨ step.operator = .mutateCustom)
      (here : step.columnHere 1 t.width = .ok c) :
    Offered step t config 2 (config.comparisonsOf (t.kind c))
  | constants {c : Nat} (op : step.operator = .filter ∨ step.operator = .mutateCustom)
      (here : step.columnHere 1 t.width = .ok c) :
    Offered step t config 3 (config.constantsOf (t.kind c))
  | separable (op : step.operator = .separate) :
    Offered step t config 1 (((t.columnsOf .text).filter t.isSeparable).map Argument.column)
  | otherColumns {key : Nat} (op : step.operator = .spread)
      (here : step.columnHere 1 t.width = .ok key) :
    Offered step t config 2 ((t.positions.filter (· ≠ key)).map Argument.column)
  | gathered (op : step.operator = .gather) :
    Offered step t config 1 (((columnChoices (min config.gatherLimit t.width) t.width).filter
      t.sharesKind).map Argument.columns)
  | kept (op : step.operator = .gatherNeg) :
    Offered step t config 1
      (((columnChoices (min config.keepLimit (t.width - 1)) t.width).filter
        fun kept => t.sharesKind (t.others kept)).map Argument.columns)
  | targets {groups : List Nat} (op : step.operator = .groupSum)
      (read : step.argument? 1 = some (.columns groups)) :
    Offered step t config 2 (((t.columnsOf .number).filter (· ∉ groups)).map Argument.column ++
      if Aggregate.count ∈ config.aggregates then [.rows] else [])
  | countOfRows (op : step.operator = .groupSum) (read : step.argument? 2 = some .rows) :
    Offered step t config 3 [.aggregate .count]
  | aggregates {c : Nat} (op : step.operator = .groupSum)
      (read : step.argument? 2 = some (.column c)) :
    Offered step t config 3 ((config.aggregates.filter (· ≠ .count)).map Argument.aggregate)
  | numericColumns (op : step.operator = .cumsum ∨ step.operator = .mutate) :
    Offered step t config 1 ((t.columnsOf .number).map Argument.column)
  | arithmetic (op : step.operator = .mutate) :
    Offered step t config 2 (config.arithmetic.map Argument.arithmetic)
  | addends {left : Nat} (op : step.operator = .mutate)
      (here : step.columnHere 1 t.width = .ok left)
      (read : step.argument? 2 = some (.arithmetic .plus)) :
    Offered step t config 3 (((t.columnsOf .number).filter (left < ·)).map Argument.column)
  | subtrahends {left : Nat} (op : step.operator = .mutate)
      (here : step.columnHere 1 t.width = .ok left)
      (read : step.argument? 2 = some (.arithmetic .minus)) :
    Offered step t config 3 (((t.columnsOf .number).filter (· ≠ left)).map Argument.column)

/-- No operator takes more than three arguments. -/
theorem position_of_ok (ok : step.domain position t config = .ok values) :
    position = 1 ∨ position = 2 ∨ position = 3 := by
  unfold domain at ok
  dsimp only at ok
  split at ok <;> simp_all

/-- A domain that is not refused is one of them. -/
theorem offered_of_ok (ok : step.domain position t config = .ok values) :
    step.Offered t config position values := by
  rcases position_of_ok ok with rfl | rfl | rfl
  · cases op : step.operator <;> simp only [domain, op, Except.ok.injEq] at ok <;> subst ok
    case select => exact .columnLists (.inl op)
    case groupSum => exact .columnLists (.inr op)
    case unite => exact .everyColumn (.inl op)
    case filter => exact .everyColumn (.inr (.inl op))
    case spread => exact .everyColumn (.inr (.inr (.inl op)))
    case mutateCustom => exact .everyColumn (.inr (.inr (.inr op)))
    case separate => exact .separable op
    case gather => exact .gathered op
    case gatherNeg => exact .kept op
    case cumsum => exact .numericColumns (.inl op)
    case mutate => exact .numericColumns (.inr op)
  · cases op : step.operator <;>
      simp only [domain, op, bind_eq_ok, pure_eq_ok, Except.ok.injEq, reduceCtorEq] at ok
    case unite =>
      obtain ⟨left, here, rfl⟩ := ok
      exact .laterColumns op here
    case spread =>
      obtain ⟨key, here, rfl⟩ := ok
      exact .otherColumns op here
    case filter =>
      obtain ⟨c, here, rfl⟩ := ok
      exact .comparisons (.inl op) here
    case mutateCustom =>
      obtain ⟨c, here, rfl⟩ := ok
      exact .comparisons (.inr op) here
    case groupSum =>
      split at ok
      next groups read =>
        cases ok
        exact .targets op read
      next => cases ok
    case mutate =>
      subst ok
      exact .arithmetic op
  · cases op : step.operator <;>
      simp only [domain, op, bind_eq_ok, pure_eq_ok, Except.ok.injEq, reduceCtorEq] at ok
    case unite =>
      subst ok
      exact .separator op
    case filter =>
      obtain ⟨c, here, rfl⟩ := ok
      exact .constants (.inl op) here
    case mutateCustom =>
      obtain ⟨c, here, rfl⟩ := ok
      exact .constants (.inr op) here
    case groupSum =>
      split at ok
      next read =>
        cases ok
        exact .countOfRows op read
      next c read =>
        cases ok
        exact .aggregates op read
      next => cases ok
    case mutate =>
      obtain ⟨left, here, listed⟩ := ok
      split at listed
      next read =>
        cases listed
        exact .addends op here read
      next read =>
        cases listed
        exact .subtrahends op here read
      next => cases listed

/-- And each of them is a domain that is not refused. -/
theorem ok_of_offered (offered : step.Offered t config position values) :
    step.domain position t config = .ok values := by
  cases offered with
  | columnLists op | numericColumns op => rcases op with op | op <;> simp only [domain, op]
  | everyColumn op => rcases op with op | op | op | op <;> simp only [domain, op]
  | comparisons op here | constants op here =>
    rcases op with op | op <;> simp only [domain, op, here] <;> rfl
  | laterColumns op here | otherColumns op here => simp only [domain, op, here]; rfl
  | targets op read | countOfRows op read | aggregates op read => simp only [domain, op, read]
  | addends op here read | subtrahends op here read => simp only [domain, op, here, read]; rfl
  | separator op | separable op | gathered op | kept op | arithmetic op => simp only [domain, op]

end Reshape.Step
