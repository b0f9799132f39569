import Reshape.Proofs.RowSources

/-! Equivalence of tables: the same rows, in any order, under columns matched
one to one. Tables that differ in nothing but names, the order of rows and the
order of some columns are equivalent. -/
namespace Reshape.Table

open scoped List

variable {required actual t : Table}

/-- Two tables are equivalent just when some mapping matches them exactly. -/
theorem equivalent_to_iff :
    required.equivalentTo actual = true ↔ ∃ mapping, Matches .exact required actual mapping :=
  (align_eq_some_iff_least .exact required actual).1

/-- A matching of the columns under which the rows are rearranged. -/
theorem equivalent_of_perm (mapping : List Nat) (total : mapping.length = required.width)
    (different : mapping.Nodup) (inRange : ∀ c ∈ mapping, c < actual.width)
    (widths : required.width = actual.width)
    (rows : required.keys ~ (actual.project mapping).keys) : required.equivalentTo actual = true :=
  equivalent_to_iff.mpr ⟨mapping, total, different, inRange, rows.count_eq, fun _ => widths⟩

/-- Each cell in its place makes the row again. -/
theorem pick_range (row : Row) : row.pick (List.range row.length) = row := by
  refine List.ext_getElem (by simp [Row.pick]) fun i inside _ => ?_
  have held : i < row.length := by simpa [Row.pick] using inside
  simp [Row.pick, Row.at, held]

/-- Cut down to all of its columns, a table keeps the keys of its rows. -/
theorem keys_project_positions (shaped : t.Shaped) : (t.project t.positions).keys = t.keys := by
  rw [keys, keys, project, List.map_map]
  refine List.map_congr_left fun row member => ?_
  show (row.pick (List.range t.width)).key = row.key
  rw [← shaped.row_length member, pick_range]

/-- Rearranged rows make an equivalent table. -/
theorem equivalent_of_keys (shaped : actual.Shaped) (widths : required.width = actual.width)
    (rows : required.keys ~ actual.keys) : required.equivalentTo actual = true := by
  refine equivalent_of_perm actual.positions (by rw [widths, positions, List.length_range])
    List.nodup_range (fun c member => List.mem_range.mp member) widths ?_
  rwa [keys_project_positions shaped]

/-- Columns that were rearranged are found again by their places. -/
theorem pick_rearranged {columns columns' : List Nat} (held : ∀ c ∈ columns, c ∈ columns')
    (row rest : Row) :
    (row.pick columns' ++ rest).pick (columns.map columns'.idxOf) = row.pick columns := by
  unfold Row.pick
  rw [List.map_map]
  refine List.map_congr_left fun c member => ?_
  have inside := List.idxOf_lt_length_of_mem (held c member)
  simp [Row.at, List.getElem?_append_left, inside]

/-- Cells that stand behind others are found behind them. -/
theorem pick_behind (front rest : Row) :
    (front ++ rest).pick ((List.range rest.length).map (front.length + ·)) = rest := by
  conv_rhs => rw [← pick_range rest]
  unfold Row.pick
  rw [List.map_map]
  refine List.map_congr_left fun i _ => ?_
  exact List.getD_append_right _ _ _ _ (Nat.le_add_right _ _) |>.trans
    (congrArg (rest.getD · default) (Nat.add_sub_cancel_left _ _))

/-- Tables are equivalent whose rows are made of the same columns of the same
rows in another order, with the same cells behind them. -/
theorem equivalent_of_rearranged {l : List Row} {columns columns' : List Nat} {n : Nat}
    (rest : Row → Row) (same : columns ~ columns') (different : columns.Nodup)
    (added : ∀ row ∈ l, (rest row).length = n)
    (rows : required.rows = l.map fun row => row.pick columns ++ rest row)
    (rows' : actual.rows = l.map fun row => row.pick columns' ++ rest row)
    (width : required.width = columns.length + n) (width' : actual.width = columns'.length + n) :
    required.equivalentTo actual = true := by
  let places := columns.map columns'.idxOf
  let behind := (List.range n).map (columns'.length + ·)
  have first : ∀ i ∈ places, i < columns'.length := by
    intro i member
    obtain ⟨c, chosen, rfl⟩ := List.mem_map.mp member
    exact List.idxOf_lt_length_of_mem (same.subset chosen)
  have later : ∀ i ∈ behind, columns'.length ≤ i ∧ i < columns'.length + n := by
    intro i member
    obtain ⟨j, bounded, rfl⟩ := List.mem_map.mp member
    exact ⟨Nat.le_add_right _ _, Nat.add_lt_add_left (List.mem_range.mp bounded) _⟩
  refine equivalent_of_perm (places ++ behind) ?_ ?_ ?_ ?_ ?_
  · simp [places, behind, width]
  · refine List.nodup_append.mpr ⟨?_, ?_, ?_⟩
    · refine different.map_on fun c chosen d chosen' equal => ?_
      exact (List.idxOf_inj (same.subset chosen)).mp equal
    · exact List.nodup_range.map fun _ _ => Nat.add_left_cancel
    · rintro i member j member' rfl
      exact absurd (first i member) (Nat.not_lt.mpr (later i member').1)
  · intro i member
    rw [width']
    rcases List.mem_append.mp member with early | late
    · exact Nat.lt_add_right n (first i early)
    · exact (later i late).2
  · rw [width, width', same.length_eq]
  · refine .of_eq ?_
    rw [keys, keys, project, rows, rows']
    simp only [List.map_map]
    refine List.map_congr_left fun row held => ?_
    have size : (row.pick columns').length = columns'.length := List.length_map _
    have picked : (row.pick columns' ++ rest row).pick (places ++ behind) =
        row.pick columns ++ rest row := by
      have front := pick_rearranged (fun _ member => same.subset member) row (rest row)
      have back := pick_behind (row.pick columns') (rest row)
      rw [size, added row held] at back
      rw [Row.pick, List.map_append]
      exact congrArg₂ (· ++ ·) front back
    simp only [Function.comp_apply, picked]

end Reshape.Table
