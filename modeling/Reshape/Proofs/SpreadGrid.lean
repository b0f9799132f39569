import Mathlib.Data.List.ProdSigma
import Mathlib.Data.Prod.Basic
import Reshape.Proofs.Gathering

/-! Spreading as a grid. A table can be spread when its rows fill a grid: one row
for each group of columns that stay and each key, and none besides. The spread
table has a row for each group, and what stands in it under a key is the value of
the row at that point of the grid. -/
namespace Reshape.Table

open scoped List

/-- The point of the grid that a row stands at. -/
def Placed.point (p : Placed) : Row × Cell := (p.group, p.key)

/-- The row at the point where a group meets a key. Without one it is the first
row of the group. -/
def Placed.meeting (placed : List Placed) (g k : Placed) : Placed :=
  (placed.find? fun p => p.group = g.group ∧ p.key = k.key).getD g

/-- What stands at the point is what is found there. -/
theorem Placed.meeting_eq {placed : List Placed} (different : (placed.map point).Nodup)
    {g k p : Placed} (held : p ∈ placed) (group : p.group = g.group) (key : p.key = k.key) :
    placed.find? (fun p => p.group = g.group ∧ p.key = k.key) = some p ∧
      meeting placed g k = p := by
  have found := find_of_distinct different held
  simp only [point, Prod.mk.injEq, group, key] at found
  exact ⟨found, by rw [meeting, found]; rfl⟩

variable {t out : Table} {key value : Nat}

/-- The rows with their places, for spreading a column of keys. -/
def placed (t : Table) (key value : Nat) : List Placed :=
  t.rows.map (place (t.others [key, value]) key)

/-- A placed row is a row of the table at its own place. -/
theorem placed_row {p : Placed} (held : p ∈ t.placed key value) :
    p.row ∈ t.rows ∧ p.group = (p.row.pick (t.others [key, value])).key ∧
      p.key = (p.row.at key).key := by
  obtain ⟨row, inTable, rfl⟩ := List.mem_map.mp held
  exact ⟨inTable, rfl, rfl⟩

/-- The rows that the groups come from. -/
def groupLeads (t : Table) (key value : Nat) : List Placed :=
  firstsBy Placed.group (t.placed key value)

/-- The rows that the keys come from. -/
def keyLeads (t : Table) (key value : Nat) : List Placed :=
  firstsBy Placed.key (t.placed key value)

/-- The rows fill a grid: at each point where a group meets a key stands one row,
and there is a row at all. -/
structure FillsGrid (t : Table) (key value : Nat) : Prop where
  apart : key ≠ value
  different : ((t.placed key value).map Placed.point).Nodup
  rows : t.rows ≠ []
  complete : ∀ g ∈ t.groupLeads key value, ∀ k ∈ t.keyLeads key value,
    ∃ p ∈ t.placed key value, p.group = g.group ∧ p.key = k.key

/-- The row of a spread table for a group. -/
def spreadRow (t : Table) (key value : Nat) (g : Placed) : Row :=
  g.row.pick (t.others [key, value]) ++ (t.keyLeads key value).map fun k =>
    (Placed.meeting (t.placed key value) g k).row.at value

/-- The table that is read off the grid. -/
def spreadTable (t : Table) (key value : Nat) : Table where
  columns := (t.others [key, value]).map t.name ++
    ((Text.Names.reserving ((t.others [key, value]).map t.name)).claimAll
      ((t.keyLeads key value).map fun k => (k.row.at key).display)).1
  kinds := (t.others [key, value]).map t.kind ++ (t.keyLeads key value).map fun _ => t.kind value
  rows := (t.groupLeads key value).map (t.spreadRow key value)

/-- **Spreading reads off a grid**, and succeeds just when there is one. -/
theorem spread_eq_ok_iff_grid :
    t.spread key value = .ok out ↔ t.FillsGrid key value ∧ t.spreadTable key value = out := by
  rw [spread_eq_ok]
  constructor
  · rintro ⟨apart, unrepeated, some, rows, grid, rfl⟩
    have different : ((t.placed key value).map Placed.point).Nodup :=
      (first_repeat_none unrepeated).1
    refine ⟨⟨apart, different, by simpa using some, fun g first k lead => ?_⟩, ?_⟩
    · obtain ⟨row, -, cells, read, -⟩ := forall₂_exists_right grid first
      obtain ⟨cell, -, p, found, -⟩ := forall₂_exists_right read lead
      exact ⟨p, List.mem_of_find?_eq_some found, by simpa using List.find?_some found⟩
    · refine congrArg (Table.mk _ _) (map_eq_of_forall₂ (g := id) (grid.imp ?_) |>.trans
        (List.map_id _))
      rintro g row ⟨cells, read, rfl⟩
      refine congrArg (g.row.pick (t.others [key, value]) ++ ·)
        (map_eq_of_forall₂ (g := id) (read.imp ?_) |>.trans (List.map_id _))
      rintro k cell ⟨p, found, rfl⟩
      exact congrArg (Row.at · value) (congrArg Placed.row (congrArg (Option.getD · g) found))
  · rintro ⟨filled, rfl⟩
    refine ⟨filled.apart, first_repeat_of_distinct filled.different nofun,
      by simpa using filled.rows, (t.groupLeads key value).map (t.spreadRow key value), ?_, rfl⟩
    refine List.forall₂_map_right_iff.mpr (List.forall₂_same.mpr fun g first => ?_)
    refine ⟨_, List.forall₂_map_right_iff.mpr (List.forall₂_same.mpr fun k lead => ?_), rfl⟩
    obtain ⟨p, held, group, same⟩ := filled.complete g first k lead
    obtain ⟨found, meets⟩ := Placed.meeting_eq filled.different held group same
    exact ⟨p, found, congrArg (Row.at · value) (congrArg Placed.row meets.symm)⟩

namespace FillsGrid

variable (filled : t.FillsGrid key value)
include filled

/-- At the meeting of a group and a key stands a row of the table that belongs
to both. -/
theorem meeting_placed {g k : Placed} (first : g ∈ t.groupLeads key value)
    (lead : k ∈ t.keyLeads key value) :
    Placed.meeting (t.placed key value) g k ∈ t.placed key value ∧
      (Placed.meeting (t.placed key value) g k).group = g.group ∧
      (Placed.meeting (t.placed key value) g k).key = k.key := by
  obtain ⟨p, held, group, same⟩ := filled.complete g first k lead
  rw [(Placed.meeting_eq filled.different held group same).2]
  exact ⟨held, group, same⟩

/-- Going through the keys, and under each key through the groups, one meets
every row once. -/
theorem meetings_perm :
    ((t.keyLeads key value).flatMap fun k => (t.groupLeads key value).map fun g =>
      Placed.meeting (t.placed key value) g k) ~ t.placed key value := by
  refine (List.perm_ext_iff_of_nodup ?_ (filled.different.of_map _)).mpr fun p => ⟨?_, ?_⟩
  · -- Different points are met, so different rows.
    refine List.Nodup.of_map Placed.point ?_
    have points : ((t.keyLeads key value).flatMap fun k => (t.groupLeads key value).map fun g =>
        Placed.meeting (t.placed key value) g k).map Placed.point =
          (((t.keyLeads key value).map Placed.key) ×ˢ
            ((t.groupLeads key value).map Placed.group)).map Prod.swap := by
      simp only [SProd.sprod, List.product, List.map_flatMap, List.flatMap_map, List.map_map]
      refine List.flatMap_congr fun k lead => List.map_congr_left fun g first => ?_
      obtain ⟨-, group, same⟩ := filled.meeting_placed first lead
      exact Prod.ext group same
    rw [points]
    exact ((firsts_by_distinct _ _).product (firsts_by_distinct _ _)).map Prod.swap_injective
  · intro met
    obtain ⟨k, lead, met⟩ := List.mem_flatMap.mp met
    obtain ⟨g, first, rfl⟩ := List.mem_map.mp met
    exact (filled.meeting_placed first lead).1
  · intro held
    obtain ⟨k, lead, same⟩ := firsts_by_represent Placed.key held
    obtain ⟨g, first, group⟩ := firsts_by_represent Placed.group held
    refine List.mem_flatMap.mpr ⟨k, lead, List.mem_map.mpr ⟨g, first, ?_⟩⟩
    exact (Placed.meeting_eq filled.different held group.symm same.symm).2

end FillsGrid

theorem spread_table_width (t : Table) (key value : Nat) : (t.spreadTable key value).width =
    (t.others [key, value]).length + (t.keyLeads key value).length := by
  simp [spreadTable, width, claim_all_length]

/-- A spread row in its parts: the cells that stay, and a cell for each key. -/
theorem spread_row_parts (t : Table) (key value : Nat) (g : Placed) :
    (t.spreadRow key value g).pick (List.range (t.others [key, value]).length) =
        g.row.pick (t.others [key, value]) ∧
      ∀ j (inside : j < (t.keyLeads key value).length),
        (t.spreadRow key value g).at ((t.others [key, value]).length + j) =
          (Placed.meeting (t.placed key value) g (t.keyLeads key value)[j]).row.at value := by
  have size : (g.row.pick (t.others [key, value])).length = (t.others [key, value]).length :=
    List.length_map _
  have front := pick_front (g.row.pick (t.others [key, value]))
  have behind := at_behind (g.row.pick (t.others [key, value]))
  rw [size] at front behind
  refine ⟨front _, fun j inside => (behind _ j).trans ?_⟩
  simp [Row.at, inside]

end Reshape.Table
