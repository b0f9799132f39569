import Reshape.Proofs.Equivalence
import Reshape.Proofs.WellFormedness

/-! What gathering makes. Columns of one kind can always be gathered. The columns
that stay come first and keep names and kinds; behind them stand a column of names
and one of cells, and there is a row for each gathered column and each row of the
table. -/
namespace Reshape

/-- A step that gathers does what gathering its columns does. -/
theorem Step.apply_gather {t : Table} {melted : List Nat} (inside : ∀ c ∈ melted, c < t.width)
    (different : melted.Nodup) : Step.apply ⟨.gather, [.columns melted]⟩ t =
      (t.gather melted).mapError (.inapplicable .gather) := by
  have taken : Step.takeColumns ⟨.gather, [.columns melted]⟩ 1 t.width = .ok melted :=
    take_columns_eq_ok.mpr ⟨rfl, inside, different⟩
  rw [Step.apply]
  simp only [taken, ok_bind, refusing]

namespace Table

variable {t long : Table} {melted : List Nat}

theorem mem_others {columns : List Nat} {c : Nat} :
    c ∈ t.others columns ↔ c < t.width ∧ c ∉ columns := by
  rw [others, List.mem_filter, positions, List.mem_range, decide_eq_true_eq]

/-- What stands in front of something else is found in front of it. -/
theorem map_getD_front {α : Type} (front rest : List α) (default : α) :
    (List.range front.length).map ((front ++ rest).getD · default) = front := by
  refine List.ext_getElem (by simp) fun i inside _ => ?_
  have before : i < front.length := by simpa using inside
  simp [List.getElem?_append_left before, before]

theorem pick_front (front rest : Row) : (front ++ rest).pick (List.range front.length) = front :=
  map_getD_front front rest default

theorem at_behind (front rest : Row) (i : Nat) :
    (front ++ rest).at (front.length + i) = rest.at i :=
  (List.getD_append_right _ _ _ _ (Nat.le_add_right _ _)).trans
    (congrArg (rest.getD · default) (Nat.add_sub_cancel_left _ _))

/-- The row that gathering makes of a cell. -/
def gatheredRow (t : Table) (melted : List Nat) (c : Nat) (row : Row) : Row :=
  row.pick (t.others melted) ++ [.text (t.name c), row.at c]

/-- A gathered row in three parts. -/
theorem gathered_row_parts (t : Table) (melted : List Nat) (c : Nat) (row : Row) :
    (t.gatheredRow melted c row).pick (List.range (t.others melted).length) =
        row.pick (t.others melted) ∧
      (t.gatheredRow melted c row).at (t.others melted).length = .text (t.name c) ∧
      (t.gatheredRow melted c row).at ((t.others melted).length + 1) = row.at c := by
  have size : (row.pick (t.others melted)).length = (t.others melted).length := List.length_map _
  have front := pick_front (row.pick (t.others melted)) [.text (t.name c), row.at c]
  have behind := at_behind (row.pick (t.others melted)) [.text (t.name c), row.at c]
  rw [size] at front behind
  exact ⟨front, behind 0, behind 1⟩

/-- What gathering makes of columns that share a kind. -/
structure Gathered (t : Table) (melted : List Nat) (long : Table) : Prop where
  columns : ∃ added, long.columns = (t.others melted).map t.name ++ added ∧ added.length = 2
  kinds : ∀ c ∈ melted, long.kinds = (t.others melted).map t.kind ++ [.text, t.kind c]
  rows : long.rows = melted.flatMap fun c => t.rows.map (t.gatheredRow melted c)

/-- Gathering succeeds on columns that share a kind. -/
theorem gather_of_shared (chosen : melted ≠ [])
    (shared : ∀ c ∈ melted, ∀ d ∈ melted, t.kind c = t.kind d) :
    ∃ long, t.gather melted = .ok long ∧ Gathered t melted long := by
  obtain ⟨first, rest, rfl⟩ := List.exists_cons_of_ne_nil chosen
  refine ⟨_, gather_eq_ok.mpr ⟨first, rfl, fun c member =>
    shared c member first List.mem_cons_self, rfl⟩, ⟨_, rfl, ?_⟩, fun c member => ?_, rfl⟩
  · exact claim_all_length _ _
  · rw [shared c member first List.mem_cons_self]

namespace Gathered

variable (made : Gathered t melted long)
include made

theorem width : long.width = (t.others melted).length + 2 := by
  obtain ⟨added, columns, size⟩ := made.columns
  rw [Table.width, columns, List.length_append, List.length_map, size]

/-- The columns in front of the two new ones keep their names. -/
theorem names : (List.range (t.others melted).length).map long.name =
    (t.others melted).map t.name := by
  obtain ⟨added, columns, -⟩ := made.columns
  have front := map_getD_front ((t.others melted).map t.name) added ""
  rwa [← columns, List.length_map] at front

theorem kinds_front (chosen : melted ≠ []) :
    (List.range (t.others melted).length).map long.kind = (t.others melted).map t.kind := by
  obtain ⟨c, member⟩ := List.exists_mem_of_ne_nil _ chosen
  have front := map_getD_front ((t.others melted).map t.kind) [.text, t.kind c] .text
  rwa [← made.kinds c member, List.length_map] at front

theorem kind_value {c : Nat} (member : c ∈ melted) :
    long.kind ((t.others melted).length + 1) = t.kind c := by
  rw [Table.kind, made.kinds c member, List.getD_append_right _ _ _ _ (by simp)]
  simp

end Gathered

end Table
end Reshape
