import Reshape.Proofs.GroupTotals
import Reshape.Proofs.SpreadAfterGather

/-! Full grids, told by the rows alone. Spreading goes by the places that it gives
the rows; here the same is said without them. A group is what the rows of a table
are in the columns that stay, a key is what they are in the key column, and the
table can be spread when each group has each key in exactly one row. -/
namespace Reshape.Table

variable {t out : Table} {key value : Nat} {g : Row} {k : Cell}

/-- The group that a row belongs to: the keys of its cells in the columns that
stay. -/
def groupOf (t : Table) (key value : Nat) (row : Row) : Row :=
  (row.pick (t.others [key, value])).key

/-- The groups of a table, in the order in which they first occur. -/
def gridGroups (t : Table) (key value : Nat) : List Row := t.tuples (t.others [key, value])

/-- The keys of a table, in the order in which they first occur. -/
def gridKeys (t : Table) (key : Nat) : List Cell :=
  (t.rows.map fun row => (row.at key).key).eraseDups

/-- The rows of a group that have a key. -/
def rowsAt (t : Table) (key value : Nat) (g : Row) (k : Cell) : List Row :=
  (t.rowsOf (t.others [key, value]) g).filter fun row => (row.at key).key = k

theorem grid_groups_eq (t : Table) (key value : Nat) :
    t.gridGroups key value = (t.groupLeads key value).map Placed.group := by
  rw [gridGroups, tuples_eq, groupLeads, placed, firsts_by_map, List.map_map]
  rfl

theorem grid_keys_eq (t : Table) (key value : Nat) :
    t.gridKeys key = (t.keyLeads key value).map Placed.key := by
  rw [gridKeys, erase_dups_map, keyLeads, placed, firsts_by_map, List.map_map]
  rfl

/-- There are as many rows of a group with a key as rows placed at that point. -/
theorem rows_at_length (t : Table) (key value : Nat) (g : Row) (k : Cell) :
    (t.rowsAt key value g k).length = ((t.placed key value).map Placed.point).count (g, k) := by
  rw [placed, List.map_map, List.count, List.countP_map, List.countP_eq_length_filter, rowsAt,
    rowsOf, List.filter_filter]
  refine congrArg List.length (List.filter_congr fun row _ => ?_)
  rw [Function.comp_apply, Bool.eq_iff_iff, Bool.and_eq_true, decide_eq_true_iff,
    decide_eq_true_iff, beq_iff_eq, Prod.ext_iff]
  exact and_comm

/-- The groups and keys that are met by rows are the coordinates of their points. -/
theorem mem_grid_of_point (met : (g, k) ∈ (t.placed key value).map Placed.point) :
    g ∈ t.gridGroups key value ∧ k ∈ t.gridKeys key := by
  obtain ⟨p, held, point⟩ := List.mem_map.mp met
  obtain ⟨row, inTable, rfl⟩ := List.mem_map.mp held
  cases point
  exact ⟨List.mem_eraseDups.mpr (List.mem_map_of_mem inTable),
    List.mem_eraseDups.mpr (List.mem_map_of_mem inTable)⟩

/-- **A full grid**: rows fill a grid when there are some, and each group has each
key in exactly one of them. -/
theorem fills_grid_iff (apart : key ≠ value) :
    t.FillsGrid key value ↔ t.rows ≠ [] ∧
      ∀ g ∈ t.gridGroups key value, ∀ k ∈ t.gridKeys key,
        (t.rowsAt key value g k).length = 1 := by
  simp only [rows_at_length]
  constructor
  · intro filled
    refine ⟨filled.rows, fun g group k same => ?_⟩
    rw [grid_groups_eq] at group
    rw [grid_keys_eq t key value] at same
    obtain ⟨g, first, rfl⟩ := List.mem_map.mp group
    obtain ⟨k, lead, rfl⟩ := List.mem_map.mp same
    obtain ⟨p, held, group, same⟩ := filled.complete g first k lead
    have point : p.point = (g.group, k.key) := Prod.ext group same
    exact point ▸ List.count_eq_one_of_mem filled.different (List.mem_map_of_mem held)
  · rintro ⟨some, once⟩
    refine ⟨apart, List.nodup_iff_count_le_one.mpr fun point => ?_, some,
      fun g first k lead => ?_⟩
    · -- Only a point in the grid could be the place of two rows.
      by_cases met : point ∈ (t.placed key value).map Placed.point
      · obtain ⟨group, same⟩ := mem_grid_of_point met
        exact (once _ group _ same).le
      · exact (List.count_eq_zero_of_not_mem met).le.trans (Nat.zero_le 1)
    · have group : g.group ∈ t.gridGroups key value :=
        grid_groups_eq t key value ▸ List.mem_map_of_mem first
      have same : k.key ∈ t.gridKeys key :=
        grid_keys_eq t key value ▸ List.mem_map_of_mem lead
      have met : (g.group, k.key) ∈ (t.placed key value).map Placed.point :=
        List.count_pos_iff.mp (once _ group _ same ▸ Nat.one_pos)
      obtain ⟨p, held, point⟩ := List.mem_map.mp met
      exact ⟨p, held, congrArg Prod.fst point, congrArg Prod.snd point⟩

/-- The row that a group comes from is the first of the table in that group. -/
theorem find_group_lead {g : Placed} (first : g ∈ t.groupLeads key value) :
    t.rows.find? (fun row => t.groupOf key value row = g.group) = some g.row := by
  have found := find_of_first first
  rw [placed, List.find?_map] at found
  obtain ⟨row, found, rfl⟩ := Option.map_eq_some_iff.mp found
  exact found

namespace FillsGrid

variable (filled : t.FillsGrid key value)
include filled

/-- The row where a group meets a key is the one row of the group with that key. -/
theorem rows_at_eq {g k : Placed} (first : g ∈ t.groupLeads key value)
    (lead : k ∈ t.keyLeads key value) :
    t.rowsAt key value g.group k.key = [(Placed.meeting (t.placed key value) g k).row] := by
  obtain ⟨held, group, same⟩ := filled.meeting_placed first lead
  obtain ⟨inTable, ofGroup, ofKey⟩ := placed_row held
  have once := ((fills_grid_iff filled.apart).mp filled).2 g.group
    (grid_groups_eq t key value ▸ List.mem_map_of_mem first) k.key
    (grid_keys_eq t key value ▸ List.mem_map_of_mem lead)
  obtain ⟨row, only⟩ := List.length_eq_one_iff.mp once
  have here : (Placed.meeting (t.placed key value) g k).row ∈
      t.rowsAt key value g.group k.key :=
    List.mem_filter.mpr ⟨List.mem_filter.mpr
      ⟨inTable, decide_eq_true (ofGroup.symm.trans group)⟩,
        decide_eq_true (ofKey.symm.trans same)⟩
  rw [only] at here ⊢
  rw [List.mem_singleton.mp here]

/-- There are as many rows as groups times keys. -/
theorem groups_mul_keys :
    (t.gridGroups key value).length * (t.gridKeys key).length = t.rows.length := by
  have size := filled.meetings_perm.length_eq
  simp only [List.length_flatMap, List.length_map, List.map_const', List.sum_replicate_nat,
    placed] at size
  rw [grid_groups_eq, grid_keys_eq t key value, List.length_map, List.length_map, ← size,
    Nat.mul_comm]

end FillsGrid

/-- **Spreading succeeds just on full grids.** Its result then has a row for each
group: the cells of the group's first row in the columns that stay, and for each
key the value of the one row of the group with that key. -/
theorem spread_full_grid (insideKey : key < t.width) (insideValue : value < t.width)
    (apart : key ≠ value) :
    let spread := Step.apply ⟨.spread, [.column key, .column value]⟩ t
    ((∃ out, spread = .ok out) ↔ t.rows ≠ [] ∧
      ∀ g ∈ t.gridGroups key value, ∀ k ∈ t.gridKeys key,
        (t.rowsAt key value g k).length = 1) ∧
    ∀ out, spread = .ok out →
      (t.gridGroups key value).length * (t.gridKeys key).length = t.rows.length ∧
      List.Forall₂ (fun g row => ∃ first cells,
          t.rows.find? (fun row => t.groupOf key value row = g) = some first ∧
          List.Forall₂ (fun k cell => ∃ only,
            t.rowsAt key value g k = [only] ∧ only.at value = cell) (t.gridKeys key) cells ∧
          first.pick (t.others [key, value]) ++ cells = row)
        (t.gridGroups key value) out.rows := by
  dsimp only
  rw [Step.apply_spread insideKey insideValue]
  simp only [map_error_eq_ok, spread_eq_ok_iff_grid]
  refine ⟨by simp [fills_grid_iff apart], ?_⟩
  rintro out ⟨filled, rfl⟩
  refine ⟨filled.groups_mul_keys, ?_⟩
  rw [grid_groups_eq, grid_keys_eq t key value, spreadTable, List.forall₂_map_left_iff,
    List.forall₂_map_right_iff, List.forall₂_same]
  intro g first
  refine ⟨g.row, _, find_group_lead first, ?_, rfl⟩
  rw [List.forall₂_map_left_iff, List.forall₂_map_right_iff, List.forall₂_same]
  exact fun k lead => ⟨_, filled.rows_at_eq first lead, rfl⟩

namespace Grids

/-- Amounts by name and quarter, not in the order of either. -/
def amounts : Table where
  columns := ["name", "quarter", "amount"]
  kinds := [.text, .number, .number]
  rows := [[.text "b", .number 2, .number 10], [.text "a", .number 1, .number 20],
    [.text "a", .number 2, .number 30], [.text "b", .number 1, .number 40]]

/-- The amounts without the last one. -/
def gap : Table := { amounts with rows := amounts.rows.take 3 }

end Grids

open Grids in
/-- The amounts fill a grid; without the last of them it has a gap. -/
theorem spread_full_grid_amounts :
    (∃ out, Step.apply ⟨.spread, [.column 1, .column 2]⟩ amounts = .ok out ∧
      out.rows.length = 2) ∧
    ¬ ∃ out, Step.apply ⟨.spread, [.column 1, .column 2]⟩ gap = .ok out := by
  obtain ⟨succeeds, grid⟩ := @spread_full_grid amounts 1 2 (by decide) (by decide) (by decide)
  obtain ⟨succeeds', -⟩ := @spread_full_grid gap 1 2 (by decide) (by decide) (by decide)
  constructor
  · obtain ⟨out, ran⟩ := succeeds.mpr (by decide +kernel)
    have groups : (amounts.gridGroups 1 2).length = 2 := by decide +kernel
    exact ⟨out, ran, (grid out ran).2.length_eq.symm.trans groups⟩
  · exact fun ran => absurd (succeeds'.mp ran) (by decide +kernel)

end Reshape.Table
