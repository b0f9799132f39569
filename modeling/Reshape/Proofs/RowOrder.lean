import Reshape.Proofs.Replacement

/-! The order of rows. Most operators treat the rows of their table alike: each
row of the value is made of one row below, in a way that only the collection of
rows decides, and so does the collection decide whether the operator applies. On
rearranged inputs such operators have rearranged values, and they are refused on
the same inputs. Three operators look at the order: spreading names its columns
and places its rows as it meets them, a running total adds up from the top, and a
summary is represented by the first row of its group. -/
namespace Reshape

open scoped List

/-- The operators whose value depends on the order of rows. -/
def Operator.readsOrder : Operator → Bool
  | .spread | .cumsum | .groupSum => true
  | _ => false

/-- Whether a column of fragments holds numbers does not depend on their order. -/
theorem Cell.of_fragments_perm {fragments fragments' : List (List Char)}
    (same : fragments ~ fragments') : (ofFragments fragments).1 = (ofFragments fragments').1 := by
  have tests : (fragments ≠ [] ∧ fragments.all fun f => (fragmentNumber? f).isSome) ↔
      (fragments' ≠ [] ∧ fragments'.all fun f => (fragmentNumber? f).isSome) := by
    simp only [ne_eq, List.all_eq_true, same.mem_iff]
    rw [← List.length_eq_zero_iff, same.length_eq, List.length_eq_zero_iff]
  rw [ofFragments, ofFragments]
  simp only [tests]
  split <;> rfl

namespace Table

variable {t t' out : Table} {rows : List Row}

/-- Tables that differ in nothing but the order of their rows. -/
structure Reordered (t t' : Table) : Prop where
  columns : t'.columns = t.columns
  kinds : t'.kinds = t.kinds
  rows : t'.rows ~ t.rows

theorem Reordered.symm (reordered : t.Reordered t') : t'.Reordered t :=
  ⟨reordered.columns.symm, reordered.kinds.symm, reordered.rows.symm⟩

/-- A reordered table is the table with its rows rearranged. -/
theorem reordered_iff : t.Reordered t' ↔ ∃ rows, rows ~ t.rows ∧ t' = { t with rows } := by
  constructor
  · rintro ⟨columns, kinds, rows⟩
    obtain ⟨columns', kinds', rows'⟩ := t'
    cases columns
    cases kinds
    exact ⟨rows', rows, rfl⟩
  · rintro ⟨rows, same, rfl⟩
    exact ⟨rfl, rfl, same⟩

/-- A column put behind the others row by row. -/
theorem append_rows (t : Table) (name : String) (kind : Kind) (cell : Row → Cell) :
    (t.append name kind (t.rows.map cell)).rows = t.rows.map fun row => row ++ [cell row] := by
  simp [append, List.zipWith_map_right, List.zipWith_self]

section Columns

variable (same : rows ~ t.rows)
include same

theorem append_reordered (name : String) (kind : Kind) (cell : Row → Cell) :
    (t.append name kind (t.rows.map cell)).Reordered
      ({ t with rows }.append name kind (rows.map cell)) := by
  refine ⟨rfl, rfl, ?_⟩
  rw [append_rows, append_rows]
  exact same.map _

theorem splice_reordered (place : Nat) (gone : List Nat) (new : List (String × Kind))
    (cells : Row → Row) : (t.splice place gone new (t.rows.map cells)).Reordered
      ({ t with rows }.splice place gone new (rows.map cells)) := by
  refine ⟨rfl, rfl, ?_⟩
  rw [splice_rows, splice_rows]
  exact same.map _

theorem split_column_reordered (column : Nat) (cut : Row → List Char × List Char) :
    (t.splitColumn column (t.rows.map cut)).Reordered
      ({ t with rows }.splitColumn column (rows.map cut)) := by
  have lefts := Cell.of_fragments_perm (same.map fun row => (cut row).1)
  have rights := Cell.of_fragments_perm (same.map fun row => (cut row).2)
  rw [split_column_rows, split_column_rows { t with rows }]
  simp only [lefts, rights]
  exact splice_reordered same column [] _ _

/-- A column that separates does so in any order, row by row. -/
theorem separate_reordered {column : Nat} (made : t.separate column = .ok out) :
    ∃ out', { t with rows }.separate column = .ok out' ∧ out.Reordered out' := by
  obtain ⟨text, parts, cut, rfl⟩ := separate_eq_ok.mp made
  have each : ∀ row ∈ t.rows, Text.splitFirst? (· ∈ Text.separators) (cellText (row.at column)) =
      some (halves (· ∈ Text.separators) column row) := by
    intro row held
    obtain ⟨part, -, found⟩ := forall₂_exists_right cut (List.mem_map_of_mem held)
    rw [halves, found]
    rfl
  have read : parts = t.rows.map (halves (· ∈ Text.separators) column) := by
    have found := List.forall₂_map_left_iff.mp cut
    refine (List.map_id _).symm.trans (map_eq_of_forall₂ (f := halves _ column) (g := id) ?_).symm
    refine (forall₂_mem found).imp fun row part pair => ?_
    obtain ⟨held, -, here⟩ := pair
    exact Option.some.inj ((each row held).symm.trans here)
  rw [read]
  refine ⟨_, separate_eq_ok.mpr ⟨text, rows.map (halves (· ∈ Text.separators) column), ?_, rfl⟩,
    split_column_reordered same column _⟩
  exact List.forall₂_map_left_iff.mpr (List.forall₂_map_right_iff.mpr
    (List.forall₂_same.mpr fun row held => each row (same.subset held)))

/-- Gathering goes through the rows once for each column. -/
theorem gather_reordered {melted : List Nat} (made : t.gather melted = .ok out) :
    ∃ out', { t with rows }.gather melted = .ok out' ∧ out.Reordered out' := by
  obtain ⟨first, head, kinds, rfl⟩ := gather_eq_ok.mp made
  refine ⟨_, gather_eq_ok.mpr ⟨first, head, kinds, rfl⟩, rfl, rfl, ?_⟩
  exact List.Perm.flatMap_left _ fun c _ => same.map _

end Columns
end Table

/-- A step that does not look at the order of rows has a reordered value on a
reordered table. -/
theorem Step.apply_reordered {step : Step} {t t' out : Table} (reordered : t.Reordered t')
    (blind : step.operator.readsOrder = false) (ran : step.apply t = .ok out) :
    ∃ out', step.apply t' = .ok out' ∧ out.Reordered out' := by
  obtain ⟨rows, same, rfl⟩ := Table.reordered_iff.mp reordered
  cases applied_of_ok ran with
  | select op taken made =>
    obtain ⟨chosen, rfl⟩ := Table.select_eq_ok.mp made
    exact ⟨_, ok_of_applied (.select op taken (Table.select_eq_ok.mpr ⟨chosen, rfl⟩)),
      rfl, rfl, same.map _⟩
  | unite op takenLeft takenRight takenText made =>
    obtain ⟨apart, rfl⟩ := Table.unite_eq_ok.mp made
    exact ⟨_, ok_of_applied (.unite op takenLeft takenRight takenText
      (Table.unite_eq_ok.mpr ⟨apart, rfl⟩)), Table.splice_reordered same _ _ _ _⟩
  | filter op taken takenComparison takenConstant made =>
    obtain ⟨comparable, rfl⟩ := Table.filter_eq_ok.mp made
    exact ⟨_, ok_of_applied (.filter op taken takenComparison takenConstant
      (Table.filter_eq_ok.mpr ⟨comparable, rfl⟩)), rfl, rfl, same.filter _⟩
  | separate op taken made =>
    obtain ⟨out', made', reordered'⟩ := Table.separate_reordered same made
    exact ⟨out', ok_of_applied (.separate op taken made'), reordered'⟩
  | gather op taken made =>
    obtain ⟨out', made', reordered'⟩ := Table.gather_reordered same made
    exact ⟨out', ok_of_applied (.gather op taken made'), reordered'⟩
  | gatherNeg op taken made =>
    obtain ⟨out', made', reordered'⟩ := Table.gather_reordered same made
    exact ⟨out', ok_of_applied (.gatherNeg op taken made'), reordered'⟩
  | mutate op takenLeft takenArithmetic takenRight made =>
    obtain ⟨numeric, rfl⟩ := Table.mutate_eq_ok.mp made
    exact ⟨_, ok_of_applied (.mutate op takenLeft takenArithmetic takenRight
      (Table.mutate_eq_ok.mpr ⟨numeric, rfl⟩)), Table.append_reordered same _ _ _⟩
  | mutateCustom op taken takenComparison takenConstant made =>
    obtain ⟨comparable, rfl⟩ := Table.mutate_custom_eq_ok.mp made
    refine ⟨_, ok_of_applied (.mutateCustom op taken takenComparison takenConstant
      (Table.mutate_custom_eq_ok.mpr ⟨comparable, rfl⟩)), ?_⟩
    rw [Table.column, Table.column, List.map_map, List.map_map]
    exact Table.append_reordered same _ _ _
  | spread op | cumsum op | groupSum op => simp [op, Operator.readsOrder] at blind

/-- So have steps that do not, one after the other. -/
theorem eval_steps_reordered {inputs inputs' : List Table}
    (reordered : List.Forall₂ Table.Reordered inputs inputs') {input : Nat} {steps : List Step}
    (blind : ∀ step ∈ steps, step.operator.readsOrder = false) {out : Table}
    (ran : evalSteps inputs input steps = .ok out) :
    ∃ out', evalSteps inputs' input steps = .ok out' ∧ out.Reordered out' := by
  induction steps generalizing out with
  | nil =>
    obtain ⟨size, each⟩ := List.forall₂_iff_get.mp reordered
    rw [evalSteps] at ran
    split at ran
    · rename_i held
      cases ran
      obtain ⟨inside, rfl⟩ := List.getElem?_eq_some_iff.mp held
      refine ⟨inputs'[input], ?_, each input inside (size ▸ inside)⟩
      rw [evalSteps, List.getElem?_eq_getElem (size ▸ inside)]
    · cases ran
  | cons step rest ih =>
    obtain ⟨here, later⟩ := List.forall_mem_cons.mp blind
    rw [evalSteps, bind_eq_ok] at ran
    obtain ⟨below, inner, applied⟩ := ran
    obtain ⟨below', inner', same⟩ := ih later inner
    obtain ⟨out', applied', reordered'⟩ := Step.apply_reordered same here applied
    exact ⟨out', by rw [evalSteps, inner', ok_bind, applied'], reordered'⟩

/-- **Row order does not matter outside the operators that read it.** Without
these, a program has a value on reordered inputs just when it has one on the
inputs as they were, and the values differ in nothing but the order of rows. -/
theorem eval_reordered (p : Program) {inputs inputs' : List Table}
    (reordered : List.Forall₂ Table.Reordered inputs inputs')
    (blind : ∀ op ∈ p.operators, op.readsOrder = false) :
    ((∃ out', p.eval inputs' = .ok out') ↔ ∃ out, p.eval inputs = .ok out) ∧
      ∀ out out', p.eval inputs = .ok out → p.eval inputs' = .ok out' → out.Reordered out' := by
  have steps : ∀ step ∈ p.steps, step.operator.readsOrder = false := fun step member =>
    blind step.operator (List.mem_map_of_mem member)
  have back : List.Forall₂ Table.Reordered inputs' inputs :=
    (reordered.imp fun _ _ => Table.Reordered.symm).flip
  refine ⟨⟨?_, ?_⟩, fun out out' ran ran' => ?_⟩
  · rintro ⟨out', ran'⟩
    obtain ⟨out, ran, -⟩ := eval_steps_reordered back steps ran'
    exact ⟨out, ran⟩
  · rintro ⟨out, ran⟩
    obtain ⟨out', ran', -⟩ := eval_steps_reordered reordered steps ran
    exact ⟨out', ran'⟩
  · obtain ⟨other, ran'', same⟩ := eval_steps_reordered reordered steps ran
    cases (ran'' : p.eval inputs' = .ok other).symm.trans ran'
    exact same

namespace RowOrder

/-- Parts by code, with two amounts to a part. -/
def parts : Table where
  columns := ["code", "old", "new"]
  kinds := [.text, .number, .number]
  rows := [[.text "7-a", .number 1, .number 2], [.text "8-b", .number 3, .number 4],
    [.text "9-7", .number 5, .number 6]]

/-- The parts from the last to the first. -/
def reversed : Table := { parts with rows := parts.rows.reverse }

/-- Splits the codes, and writes the amounts above four below each other. -/
def splitting : Program where
  input := 0
  steps := [⟨.filter, [.column 3, .comparison .greater, .constant (.number 4)]⟩,
    ⟨.gather, [.columns [2, 3]]⟩, ⟨.separate, [.column 0]⟩]

/-- Splits the codes twice, which only some of them allow. -/
def splittingTwice : Program where
  input := 0
  steps := [⟨.separate, [.column 1]⟩, ⟨.separate, [.column 0]⟩]

end RowOrder

open RowOrder in
theorem eval_reordered_parts :
    (∃ out out', splitting.eval [parts] = .ok out ∧ splitting.eval [reversed] = .ok out' ∧
      out.height = 2 ∧ out.Reordered out') ∧
    ¬ ∃ out', splittingTwice.eval [reversed] = .ok out' := by
  have reordered : List.Forall₂ Table.Reordered [parts] [reversed] :=
    .cons ⟨rfl, rfl, parts.rows.reverse_perm⟩ .nil
  have height : (splitting.eval [parts]).map Table.height = .ok 2 := by decide +kernel
  have refused : (splittingTwice.eval [parts]).toOption = none := by decide +kernel
  obtain ⟨out, ran, tall⟩ := map_eq_ok.mp height
  obtain ⟨succeeds, same⟩ := eval_reordered splitting reordered (by decide)
  obtain ⟨out', ran'⟩ := succeeds.mpr ⟨out, ran⟩
  refine ⟨⟨out, out', ran, ran', tall, same out out' ran ran'⟩, fun again => ?_⟩
  obtain ⟨value, ran⟩ := (eval_reordered splittingTwice reordered (by decide)).1.mp again
  simp [ran, Except.toOption] at refused

end Reshape
