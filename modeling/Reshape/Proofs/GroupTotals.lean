import Reshape.Proofs.Gathering
import Reshape.Proofs.WholeNumbers

/-! Summaries by group. The rows of a table fall apart into groups by what they
are in some columns, a group for each tuple of keys that occurs there. A summary
has a row for each tuple, which tells the total, the mean or the number of just
the rows with that tuple. -/
namespace Reshape

open scoped List

/-- The groups of elements of equal value are as large as the list together. -/
theorem sizes_by_value {α β : Type} [DecidableEq β] (f : α → β) (l : List α) :
    ((firstsBy f l).map fun a => (l.filter fun b => f b = f a).length).sum = l.length := by
  have sizes : (fun a => (l.filter fun b => f b = f a).length) =
      (fun value => (l.map f).count value) ∘ f := by
    funext a
    rw [Function.comp_apply, List.count, List.countP_map, List.countP_eq_length_filter]
    rfl
  have same : (firstsBy f l).map f ~ (l.map f).dedup := by
    rw [← erase_dups_map]
    exact (List.perm_ext_iff_of_nodup (erase_dups_map f l ▸ firsts_by_distinct f l)
      (List.nodup_dedup _)).mpr (by simp)
  rw [sizes, ← List.map_map, (same.map _).sum_eq, List.sum_map_count_dedup_eq_length,
    List.length_map]

/-- A step that summarizes does what summarizing its columns does. -/
theorem Step.apply_group_sum {t : Table} {groups : List Nat} {argument : Argument}
    {target : Option Nat} {f : Aggregate} (inside : ∀ c ∈ groups, c < t.width)
    (different : groups.Nodup)
    (taken : Step.takeTarget ⟨.groupSum, [.columns groups, argument, .aggregate f]⟩ 2 t.width =
      .ok target) :
    Step.apply ⟨.groupSum, [.columns groups, argument, .aggregate f]⟩ t =
      (t.groupSum groups target f).mapError (.inapplicable .groupSum) := by
  have takenGroups : Step.takeColumns ⟨.groupSum, [.columns groups, argument, .aggregate f]⟩ 1
      t.width = .ok groups := take_columns_eq_ok.mpr ⟨rfl, inside, different⟩
  have takenAggregate : Step.takeAggregate
      ⟨.groupSum, [.columns groups, argument, .aggregate f]⟩ 3 = .ok f :=
    take_aggregate_eq_ok.mpr rfl
  rw [Step.apply]
  simp only [taken, takenGroups, takenAggregate, ok_bind, refusing]

namespace Table

variable {t out : Table} {groups : List Nat} {target : Option Nat} {f : Aggregate}

/-- The tuples of keys that occur in some columns, in the order in which they
first occur. -/
def tuples (t : Table) (columns : List Nat) : List Row :=
  (t.rows.map fun row => (row.pick columns).key).eraseDups

/-- The rows with a tuple of keys in some columns. -/
def rowsOf (t : Table) (columns : List Nat) (tuple : Row) : List Row :=
  t.rows.filter fun row => (row.pick columns).key = tuple

/-- The tuples are told by the rows in which they first occur. -/
theorem tuples_eq (t : Table) (columns : List Nat) :
    t.tuples columns = (firstsBy (fun row => (row.pick columns).key) t.rows).map
      fun row => (row.pick columns).key :=
  erase_dups_map _ _

theorem tuples_nodup (t : Table) (columns : List Nat) : (t.tuples columns).Nodup :=
  tuples_eq t columns ▸ firsts_by_distinct _ _

/-- Every row has one of the tuples, so the rows of all tuples are as many as the
rows of the table. -/
theorem rows_of_sizes (t : Table) (columns : List Nat) :
    ((t.tuples columns).map fun tuple => (t.rowsOf columns tuple).length).sum =
      t.rows.length := by
  rw [tuples_eq, List.map_map]
  exact sizes_by_value _ _

/-- What an aggregation of a target says of some rows: their number; the sum of
their cells in the target column, which are added one after the other to negative
zero; or that sum divided by their number. The number of rows is what the binary
format converts it to. -/
inductive Summarizes (rows : List Row) : Option Nat → Aggregate → Float → Prop
  | count {target : Option Nat} : Summarizes rows target .count ⟨Float.Model.ofNat rows.length⟩
  | sum {c : Nat} {values : List Float}
    (read : rows.map (Row.at · c) = values.map Cell.number) :
    Summarizes rows (some c) .sum (values.foldl (· + ·) (-0.0))
  | mean {c : Nat} {values : List Float}
    (read : rows.map (Row.at · c) = values.map Cell.number) :
    Summarizes rows (some c) .mean
      (values.foldl (· + ·) (-0.0) / ⟨Float.Model.ofNat rows.length⟩)

/-- A row of a summary, for a tuple of keys: the first row's cells in the group
columns, and the number that sums up the rows with that tuple. -/
def SummaryRow (t : Table) (groups : List Nat) (target : Option Nat) (f : Aggregate)
    (tuple row : Row) : Prop :=
  ∃ first x, t.rows.find? (fun row => (row.pick groups).key = tuple) = some first ∧
    Summarizes (t.rowsOf groups tuple) target f x ∧ first.pick groups ++ [.number x] = row

/-- What can be summarized by groups: the rows, which are counted, or a column of
numbers that is no group column. -/
def Summable (t : Table) (groups : List Nat) (f : Aggregate) : Option Nat → Prop
  | none => f = .count
  | some c => c < t.width ∧ c ∉ groups ∧ t.kind c = .number

/-- The argument that names a target. -/
def targetArgument : Option Nat → Argument
  | none => .rows
  | some c => .column c

/-- The number that a summary makes of some rows of a table is what it says of
them. -/
theorem summarizes_apply (shaped : t.Shaped) (summable : t.Summable groups f target)
    {rows : List Row} (held : ∀ row ∈ rows, row ∈ t.rows) :
    Summarizes rows target f (f.apply (rows.map fun row =>
      match target with
      | none => 1
      | some c => ((row.at c).number?).getD 1)) := by
  cases target with
  | none =>
    cases (summable : f = .count)
    rw [Aggregate.apply, List.length_map, Number.nearest_whole]
    exact .count
  | some c =>
    obtain ⟨-, -, numeric⟩ := summable
    have read : rows.map (Row.at · c) =
        (rows.map fun row => ((row.at c).number?).getD 1).map Cell.number := by
      rw [List.map_map]
      refine List.map_congr_left fun row member => ?_
      have kind := (shaped.kind_at (held row member) c).trans numeric
      cases cell : row.at c <;> simp_all [Cell.number?]
    cases f with
    | mean =>
      rw [Aggregate.apply, List.length_map, Number.nearest_whole]
      exact .mean read
    | sum => exact .sum read
    | count =>
      rw [Aggregate.apply, List.length_map, Number.nearest_whole]
      exact .count

/-- **A summary partitions the rows**: it has a row for each tuple of group keys in
the order of first occurrence, made of the first row's group cells and of what the
aggregation says of the rows with that tuple. No two of its rows agree in the group
keys, and the groups are as large as the table together. -/
theorem group_sum_partitions (ok : t.WellFormed) (chosen : groups ≠ [])
    (different : groups.Nodup) (inside : ∀ c ∈ groups, c < t.width)
    (summable : t.Summable groups f target) :
    ∃ out, Step.apply
        ⟨.groupSum, [.columns groups, targetArgument target, .aggregate f]⟩ t = .ok out ∧
      List.Forall₂ (t.SummaryRow groups target f) (t.tuples groups) out.rows ∧
      (out.rows.map fun row => (row.pick (List.range groups.length)).key).Nodup ∧
      ((t.tuples groups).map fun tuple => (t.rowsOf groups tuple).length).sum =
        t.rows.length := by
  have taken : Step.takeTarget
      ⟨.groupSum, [.columns groups, targetArgument target, .aggregate f]⟩ 2 t.width =
        .ok target := by
    rw [Step.take_target_eq_ok]
    cases target with
    | none => rfl
    | some c => exact ⟨rfl, summable.1⟩
  obtain ⟨out, made⟩ : ∃ out, t.groupSum groups target f = .ok out := by
    refine ⟨_, group_sum_eq_ok.mpr ⟨chosen, ?_, rfl⟩⟩
    cases target with
    | none => exact summable
    | some c => exact summable.2
  obtain ⟨-, -, rfl⟩ := group_sum_eq_ok.mp made
  refine ⟨_, (Step.apply_group_sum inside different taken).trans (by rw [made]; rfl), ?_, ?_,
    rows_of_sizes t groups⟩
  · rw [tuples_eq, List.forall₂_map_left_iff, List.forall₂_map_right_iff, List.forall₂_same]
    intro first lead
    refine ⟨first, _, find_of_first lead, ?_, rfl⟩
    exact summarizes_apply ok.shaped summable fun row => List.mem_of_mem_filter
  · have front (row : Row) (rest : Row) :
        ((row.pick groups ++ rest).pick (List.range groups.length)) = row.pick groups := by
      have size : (row.pick groups).length = groups.length := List.length_map _
      exact size ▸ pick_front (row.pick groups) rest
    have keys := tuples_nodup t groups
    rw [tuples_eq] at keys
    simpa only [List.map_map, Function.comp_def, front] using keys

namespace Sales

/-- Sold amounts by city, the first two of one city but for the noise of a sum. -/
def byCity : Table where
  columns := ["city", "share", "sold"]
  kinds := [.text, .number, .number]
  rows := [[.text "b", .number 0.3, .number 1], [.text "a", .number 2, .number 5],
    [.text "b", .number (0.1 + 0.2), .number 2]]

/-- Summarizes the sales of each city and share. -/
def byShare (target : Option Nat) (f : Aggregate) : Step :=
  ⟨.groupSum, [.columns [0, 1], targetArgument target, .aggregate f]⟩

end Sales

open Sales in
/-- The sales fall into two groups. Those of the first, of one and of two, make a
total of three and a mean of one and a half. -/
theorem group_sum_partitions_sales :
    (∃ out, (byShare (some 2) .sum).apply byCity = .ok out ∧
      out.rows = [[.text "b", .number 0.3, .number 3], [.text "a", .number 2, .number 5]] ∧
      List.Forall₂ (byCity.SummaryRow [0, 1] (some 2) .sum) (byCity.tuples [0, 1]) out.rows) ∧
    (∃ out, (byShare (some 2) .mean).apply byCity = .ok out ∧
      out.rows = [[.text "b", .number 0.3, .number 1.5], [.text "a", .number 2, .number 5]] ∧
      List.Forall₂ (byCity.SummaryRow [0, 1] (some 2) .mean) (byCity.tuples [0, 1]) out.rows) ∧
    ∃ out, (byShare none .count).apply byCity = .ok out ∧
      out.rows = [[.text "b", .number 0.3, .number 2], [.text "a", .number 2, .number 1]] ∧
      List.Forall₂ (byCity.SummaryRow [0, 1] none .count) (byCity.tuples [0, 1]) out.rows := by
  have ok : byCity.WellFormed := ⟨by decide, rfl, by decide⟩
  have shown {target : Option Nat} {f : Aggregate} {rows : List Row}
      (summable : byCity.Summable [0, 1] f target)
      (computed : ((byShare target f).apply byCity).map Table.rows = .ok rows) :
      ∃ out, (byShare target f).apply byCity = .ok out ∧ out.rows = rows ∧
        List.Forall₂ (byCity.SummaryRow [0, 1] target f) (byCity.tuples [0, 1]) out.rows := by
    obtain ⟨out, ran, partitioned, -⟩ :=
      @group_sum_partitions byCity [0, 1] target f ok (by decide) (by decide) (by decide) summable
    have same := (congrArg (·.map Table.rows) ran).symm.trans computed
    exact ⟨out, ran, Except.ok.inj same, partitioned⟩
  have amounts (f : Aggregate) : byCity.Summable [0, 1] f (some 2) := ⟨by decide, by decide, rfl⟩
  exact ⟨shown (amounts .sum) (by decide +kernel), shown (amounts .mean) (by decide +kernel),
    shown rfl (by decide +kernel)⟩

end Table
end Reshape
