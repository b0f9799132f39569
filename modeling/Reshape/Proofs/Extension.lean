import Reshape.Proofs.Requirements
import Reshape.Proofs.StaticKinds

/-! Requirements behind the operators that keep columns as they are: selecting,
filtering, and those that put one computed column last. Each row they make
stands for a row of its own below, in all columns but the computed one. So what
is required of the others is required below just as it is, and what uses the
computed column is required below without it. One of the rules says so, because
the computed column has the kind that the rules look for. -/
namespace Reshape

open scoped List

variable {step : Step} {t out required : Table} {mapping : List Nat} {outermost : Bool}

/-- The kind of the column that an operator computes and puts last. -/
def Operator.computes : Operator → Option Kind
  | .mutate | .cumsum | .groupSum => some .number
  | .mutateCustom => some .boolean
  | _ => none

namespace Operator

variable {op : Operator} {kind : Kind}

theorem undone_computed (computes : op.computes = some kind) (required : Table) :
    op.undone required = (required.columnsOf kind).map fun c => required.without [c] := by
  cases op <;> cases computes <;> rfl

theorem passes_on_computed (computes : op.computes = some kind) : op.passesOn = true := by
  cases op <;> cases computes <;> rfl

end Operator

theorem Table.computed_append (shaped : t.Shaped) (name : String) (kind : Kind) {cells : List Cell}
    (height : cells.length = t.rows.length) :
    let out := t.append name kind cells
    out.kind (out.width - 1) = kind ∧
      ∃ source, SourcedOnce out t (List.range (out.width - 1)) source := by
  have last : (t.append name kind cells).width - 1 = t.width := by simp [append, width]
  dsimp only
  rw [last]
  refine ⟨?_, id, append_sourced shaped name kind height⟩
  simp [Table.kind, append, width, ← shaped.typed]

namespace Step

/-- Selecting and filtering draw each row from a row of its own. -/
theorem thinned_sourced (op : step.operator = .select ∨ step.operator = .filter)
    (ran : step.apply t = .ok out) :
    ∃ source, Table.SourcedOnce out t out.positions source := by
  cases applied_of_ok ran with
  | @select columns _ _ taken made =>
    obtain ⟨-, rfl⟩ := Table.select_eq_ok.mp made
    obtain ⟨-, inside, different⟩ := take_columns_eq_ok.mp taken
    have width : (t.project columns).width = columns.length := List.length_map _
    exact ⟨_, by simpa [Table.positions, width] using Table.project_sourced different inside⟩
  | filter _ _ _ _ made =>
    obtain ⟨-, rfl⟩ := Table.filter_eq_ok.mp made
    exact ⟨id, Table.filter_sourced _⟩
  | unite own | separate own | spread own | gather own | gatherNeg own | groupSum own
  | cumsum own | mutate own | mutateCustom own => simp [own] at op

/-- An operator that computes a column draws each row from a row of its own, but
for the last cell, which has the kind the operator computes. -/
theorem computed_sourced {kind : Kind} (shaped : t.Shaped)
    (computes : step.operator.computes = some kind) (ran : step.apply t = .ok out) :
    out.kind (out.width - 1) = kind ∧
      ∃ source, Table.SourcedOnce out t (List.range (out.width - 1)) source := by
  cases applied_of_ok ran with
  | groupSum op taken _ _ made =>
    obtain ⟨-, inside, different⟩ := take_columns_eq_ok.mp taken
    have sourced := Table.group_sum_sourced different inside made
    obtain ⟨-, -, rfl⟩ := Table.group_sum_eq_ok.mp made
    rw [op] at computes
    cases computes
    exact ⟨by simp [Table.kind, Table.width], _, by simpa [Table.width] using sourced⟩
  | cumsum op _ made =>
    obtain ⟨-, rfl⟩ := Table.cumsum_eq_ok.mp made
    rw [op] at computes
    cases computes
    exact Table.computed_append shaped _ _ (by simp [Table.running_totals_length, Table.column])
  | mutate op _ _ _ made =>
    obtain ⟨-, rfl⟩ := Table.mutate_eq_ok.mp made
    rw [op] at computes
    cases computes
    exact Table.computed_append shaped _ _ (by simp)
  | mutateCustom op _ _ _ made =>
    obtain ⟨-, rfl⟩ := Table.mutate_custom_eq_ok.mp made
    rw [op] at computes
    cases computes
    exact Table.computed_append shaped _ _ (by simp [Table.column])
  | select own | unite own | filter own | separate own | spread own | gather own
  | gatherNeg own => simp [own, Operator.computes] at computes

/-- Selecting and filtering hand down what is required of them, and it is
included below. -/
theorem thinned_covers (op : step.operator = .select ∨ step.operator = .filter)
    (ran : step.apply t = .ok out) (found : Table.Matches .included required out mapping) :
    ∃ r ∈ step.operator.backward required outermost, r.includedIn t = true := by
  obtain ⟨source, once⟩ := thinned_sourced op ran
  refine Operator.backward_of_undone ?_
    (found.included_below once fun d used => List.mem_range.mpr (found.inRange d used))
  rcases op with op | op <;> rw [op] <;> exact List.mem_singleton_self _

/-- Of an operator that computes a column, what is required without using that
column is included below, and what uses it is included there without the column
that is sent to it. -/
theorem computed_covers {kind : Kind} (shaped : t.Shaped) (shapedRequired : required.Shaped)
    (computes : step.operator.computes = some kind) (ran : step.apply t = .ok out)
    (rows : required.rows ≠ []) (found : Table.Matches .included required out mapping)
    (visible : outermost = false ∨ out.width - 1 ∈ mapping) :
    ∃ r ∈ step.operator.backward required outermost, r.includedIn t = true := by
  obtain ⟨lastKind, source, once⟩ := computed_sourced shaped computes ran
  by_cases used : out.width - 1 ∈ mapping
  · obtain ⟨c, inside, last⟩ := found.exists_getD used
    have kindOfColumn : required.kind c = kind := by
      rw [found.kind_eq shapedRequired (apply_shaped shaped ran) rows inside, last, lastKind]
    have dropped : required.without [c] ∈ step.operator.undone required := by
      rw [Operator.undone_computed computes]
      exact List.mem_map_of_mem (List.mem_filter.mpr
        ⟨List.mem_range.mpr inside, by simpa using kindOfColumn⟩)
    refine Operator.backward_of_undone dropped
      (found.without_included_below once.sourced fun i within other => ?_)
    have bound := found.inRange _ (found.getD_mem within)
    have apart := found.getD_ne within inside last (List.ne_of_not_mem_cons other)
    exact List.mem_range.mpr (by omega)
  · refine Operator.backward_of_kept (Operator.passes_on_computed computes)
      (visible.resolve_right used) (found.included_below once fun d member => ?_)
    have bound := found.inRange d member
    have apart : d ≠ out.width - 1 := fun same => used (same ▸ member)
    exact List.mem_range.mpr (by omega)

/-- **Selecting, filtering and computing a column lose nothing on the way
back.** Whatever is included in their value, one of the requirements handed down
is included below, under any match. Only an outermost operator that computes a
column has to have its column used. -/
theorem backward_covers_extension (shaped : t.Shaped) (shapedRequired : required.Shaped)
    (op : step.operator ∈ [.select, .filter, .mutate, .cumsum, .mutateCustom, .groupSum])
    (ran : step.apply t = .ok out) (rows : required.rows ≠ [])
    (found : Table.Matches .included required out mapping)
    (visible : outermost = false ∨ step.operator = .select ∨ step.operator = .filter ∨
      out.width - 1 ∈ mapping) :
    ∃ r ∈ step.operator.backward required outermost, r.includedIn t = true := by
  have computed {kind : Kind} (computes : step.operator.computes = some kind)
      (visible : outermost = false ∨ out.width - 1 ∈ mapping) :=
    computed_covers shaped shapedRequired computes ran rows found visible
  simp only [List.mem_cons, List.not_mem_nil, or_false] at op
  rcases op with op | op | op | op | op | op
  · exact thinned_covers (.inl op) ran found
  · exact thinned_covers (.inr op) ran found
  · exact computed (by rw [op]; rfl) (by simpa [op] using visible)
  · exact computed (by rw [op]; rfl) (by simpa [op] using visible)
  · exact computed (by rw [op]; rfl) (by simpa [op] using visible)
  · exact computed (by rw [op]; rfl) (by simpa [op] using visible)

end Step

namespace Extension

/-- Sales by name. -/
def sales : Table where
  columns := ["name", "amount"]
  kinds := [.text, .number]
  rows := [[.text "a", .number 1], [.text "b", .number 5], [.text "a", .number 2]]

/-- The sums of the amounts by name. -/
def summing : Step := ⟨.groupSum, [.columns [0], .column 1, .aggregate .sum]⟩

/-- The value of the summing step. -/
def sums : Table where
  columns := ["name", "sum_amount"]
  kinds := [.text, .number]
  rows := [[.text "a", .number 3], [.text "b", .number 5]]

/-- One of the sums, in front of its name. -/
def total : Table := ⟨["total", "name"], [.number, .text], [[.number 3, .text "a"]]⟩

end Extension

open Extension in
theorem backward_covers_extension_sales :
    summing.apply sales = .ok sums ∧ Table.align .included total sums = some [1, 0] ∧
      ∃ r ∈ Operator.groupSum.backward total true, r.includedIn sales = true := by
  have ran : summing.apply sales = .ok sums := by decide +kernel
  have aligned : Table.align .included total sums = some [1, 0] := by decide +kernel
  exact ⟨ran, aligned, Step.backward_covers_extension ⟨rfl, by simp [sales]⟩
    ⟨rfl, by simp [total]⟩ (by decide) ran (by decide) (Table.align_some aligned).1 (by decide)⟩

end Reshape
