import Reshape.Proofs.SpreadGrid

/-! Spreading inverts gathering. The rows of a gathered table stand on a grid: a
group for each row of the table that was gathered, as far as the columns that stay
tell its rows apart, and a key for each gathered column. What is read off the grid
is that table with the gathered columns behind the others. No column that stays
has the name of a gathered one, so the names come back unchanged. -/
namespace Reshape

/-- A step that spreads does what spreading its columns does. -/
theorem Step.apply_spread {t : Table} {key value : Nat} (insideKey : key < t.width)
    (insideValue : value < t.width) : Step.apply ⟨.spread, [.column key, .column value]⟩ t =
      (t.spread key value).mapError (.inapplicable .spread) := by
  have takenKey : Step.takeColumn ⟨.spread, [.column key, .column value]⟩ 1 t.width = .ok key :=
    take_column_eq_ok.mpr ⟨rfl, insideKey⟩
  have takenValue : Step.takeColumn ⟨.spread, [.column key, .column value]⟩ 2 t.width =
      .ok value := take_column_eq_ok.mpr ⟨rfl, insideValue⟩
  rw [Step.apply]
  simp only [takenKey, takenValue, ok_bind, refusing]

namespace Table

variable {t long : Table} {melted : List Nat}

/-- All columns but the last two. -/
theorem others_last_two {n : Nat} (width : t.width = n + 2) :
    t.others [n, n + 1] = List.range n := by
  have whole : t.positions = List.range n ++ [n, n + 1] := by
    rw [positions, width, List.range_succ, List.range_succ, List.append_assoc]
    rfl
  rw [others, whole, List.filter_append, List.filter_eq_self.mpr, List.filter_eq_nil_iff.mpr,
    List.append_nil]
  · simp
  · intro c member
    have before := List.mem_range.mp member
    refine decide_eq_true fun last => ?_
    rcases List.mem_pair.mp last with rfl | rfl <;> omega

/-- The same row with its place, for spreading it back. -/
def gatheredPlace (t : Table) (melted : List Nat) (c : Nat) (row : Row) : Placed where
  group := (row.pick (t.others melted)).key
  key := .text (t.name c)
  row := t.gatheredRow melted c row

/-- All rows with their places: the rows of the table, once for each gathered
column. -/
def gatheredPlaces (t : Table) (melted : List Nat) : List Placed :=
  melted.flatMap fun c => t.rows.map (t.gatheredPlace melted c)

/-- The columns tell the rows apart, of which there is at least one. -/
structure Identifies (t : Table) (columns : List Nat) : Prop where
  rows : t.rows ≠ []
  apart : (t.rows.map fun row => (row.pick columns).key).Nodup

namespace Gathered

variable (made : Gathered t melted long)
include made

/-- The rows of a gathered table stand on the grid of the rows and the gathered
columns. -/
theorem placed_eq : long.placed (t.others melted).length ((t.others melted).length + 1) =
    t.gatheredPlaces melted := by
  rw [Table.placed, others_last_two made.width, made.rows, gatheredPlaces, List.map_flatMap]
  simp only [List.map_map]
  refine List.flatMap_congr fun c _ => List.map_congr_left fun row _ => ?_
  obtain ⟨front, named, -⟩ := gathered_row_parts t melted c row
  simp only [Function.comp_apply, place, front, named]
  rfl

end Gathered

/-- A point of the grid belongs to one row just when the columns that stay tell
the rows apart. -/
theorem gathered_points_nodup_iff (chosen : melted ≠ []) (distinct : (melted.map t.name).Nodup) :
    ((t.gatheredPlaces melted).map Placed.point).Nodup ↔
      (t.rows.map fun row => (row.pick (t.others melted)).key).Nodup := by
  rw [gatheredPlaces, List.map_flatMap, List.nodup_flatMap]
  simp only [List.map_map]
  constructor
  · rintro ⟨each, -⟩
    obtain ⟨c, member⟩ := List.exists_mem_of_ne_nil _ chosen
    have block := each c member
    rw [show Placed.point ∘ t.gatheredPlace melted c =
      (·, Cell.text (t.name c)) ∘ fun row => (row.pick (t.others melted)).key from rfl,
      ← List.map_map] at block
    exact block.of_map _
  · intro apart
    refine ⟨fun c _ => List.Nodup.of_map Prod.fst ?_, ?_⟩
    · rw [List.map_map]
      exact apart
    · refine (distinct.of_map _).pairwise_of_forall_ne fun c left d right other => ?_
      refine List.disjoint_left.mpr fun point member member' => ?_
      obtain ⟨row, -, rfl⟩ := List.mem_map.mp member
      obtain ⟨row', -, same⟩ := List.mem_map.mp member'
      have named : Cell.text (t.name d) = .text (t.name c) := congrArg Prod.snd same
      exact other (List.inj_on_of_nodup_map distinct left right (Cell.text.inj named).symm)

/-- The groups come from the rows under the first gathered column. -/
theorem gathered_group_leads {c : Nat} (head : melted.head? = some c)
    (apart : (t.rows.map fun row => (row.pick (t.others melted)).key).Nodup) :
    firstsBy Placed.group (t.gatheredPlaces melted) = t.rows.map (t.gatheredPlace melted c) := by
  obtain ⟨rest, rfl⟩ := List.head?_eq_some_iff.mp head
  rw [gatheredPlaces, List.flatMap_cons, firsts_by_append, firsts_by_of_distinct,
    List.filter_eq_nil_iff.mpr, List.append_nil]
  · intro p first
    obtain ⟨d, -, member⟩ := List.mem_flatMap.mp (mem_firsts_by first)
    obtain ⟨row, held, rfl⟩ := List.mem_map.mp member
    have again : (t.gatheredPlace (c :: rest) d row).group ∈
        (t.rows.map (t.gatheredPlace (c :: rest) c)).map Placed.group :=
      List.mem_map.mpr ⟨_, List.mem_map_of_mem held, rfl⟩
    simpa using again
  · rw [List.map_map]
    exact apart

/-- The keys come from the first row under each gathered column. -/
theorem gathered_key_leads {first : Row} (head : t.rows.head? = some first)
    (distinct : (melted.map t.name).Nodup) : firstsBy Placed.key (t.gatheredPlaces melted) =
      melted.map fun c => t.gatheredPlace melted c first := by
  have named : (melted.map fun c => Cell.text (t.name c)).Nodup := by
    have texts := distinct.map fun _ _ => Cell.text.inj
    rwa [List.map_map] at texts
  refine firsts_by_blocks (fun c _ => by rw [List.head?_map, head]; rfl) (fun c _ p member => ?_)
    named
  obtain ⟨row, -, rfl⟩ := List.mem_map.mp member
  rfl

namespace Gathered

variable (made : Gathered t melted long) (chosen : melted ≠ [])
  (distinct : (melted.map t.name).Nodup)
include made chosen

/-- A table that fills a grid once it is gathered has its rows told apart by the
columns that stay. -/
theorem identifies_of_fills_grid
    (filled : long.FillsGrid (t.others melted).length ((t.others melted).length + 1))
    (distinct : (melted.map t.name).Nodup) : t.Identifies (t.others melted) := by
  refine ⟨fun none => filled.rows ?_, ?_⟩
  · simp [made.rows, none]
  · have different := filled.different
    rwa [made.placed_eq, gathered_points_nodup_iff chosen distinct] at different

variable (identifies : t.Identifies (t.others melted))
include distinct identifies

/-- The grid of a gathered table: a group for each row, a key for each gathered
column, and at their meeting the row that was made of that cell. -/
theorem leads_eq : ∃ c first,
    long.groupLeads (t.others melted).length ((t.others melted).length + 1) =
        t.rows.map (t.gatheredPlace melted c) ∧
      long.keyLeads (t.others melted).length ((t.others melted).length + 1) =
        melted.map fun c => t.gatheredPlace melted c first := by
  obtain ⟨c, rest, whole⟩ := List.exists_cons_of_ne_nil chosen
  obtain ⟨first, more, rows⟩ := List.exists_cons_of_ne_nil identifies.rows
  refine ⟨c, first, ?_, ?_⟩
  · rw [groupLeads, made.placed_eq, gathered_group_leads (by rw [whole]; rfl) identifies.apart]
  · rw [keyLeads, made.placed_eq, gathered_key_leads (by rw [rows]; rfl) distinct]

/-- Where the columns that stay tell the rows apart, a gathered table fills its
grid. -/
theorem fills_grid :
    long.FillsGrid (t.others melted).length ((t.others melted).length + 1) := by
  obtain ⟨c, first, groups, keys⟩ := made.leads_eq chosen distinct identifies
  refine ⟨by omega, ?_, ?_, ?_⟩
  · rw [made.placed_eq]
    exact (gathered_points_nodup_iff chosen distinct).mpr identifies.apart
  · obtain ⟨d, member⟩ := List.exists_mem_of_ne_nil _ chosen
    obtain ⟨row, held⟩ := List.exists_mem_of_ne_nil _ identifies.rows
    rw [made.rows]
    exact List.ne_nil_of_mem (List.mem_flatMap.mpr ⟨d, member, List.mem_map_of_mem held⟩)
  · rw [groups, keys, made.placed_eq]
    intro g lead k lead'
    obtain ⟨row, held, rfl⟩ := List.mem_map.mp lead
    obtain ⟨d, member, rfl⟩ := List.mem_map.mp lead'
    exact ⟨t.gatheredPlace melted d row,
      List.mem_flatMap.mpr ⟨d, member, List.mem_map_of_mem held⟩, rfl, rfl⟩

/-- The rows read off the grid are the rows of the table, with the gathered
columns behind the others. -/
theorem spread_rows_eq :
    (long.spreadTable (t.others melted).length ((t.others melted).length + 1)).rows =
      (t.project (t.others melted ++ melted)).rows := by
  have filled := made.fills_grid chosen distinct identifies
  obtain ⟨c, first, groups, keys⟩ := made.leads_eq chosen distinct identifies
  rw [spreadTable, groups, project, List.map_map]
  refine List.map_congr_left fun row held => ?_
  simp only [Function.comp_apply, spreadRow, others_last_two made.width, keys, List.map_map,
    Row.pick, List.map_append]
  refine congrArg₂ (· ++ ·) (gathered_row_parts t melted c row).1
    (List.map_congr_left fun d member => ?_)
  have met : Placed.meeting (long.placed (t.others melted).length ((t.others melted).length + 1))
      (t.gatheredPlace melted c row) (t.gatheredPlace melted d first) =
        t.gatheredPlace melted d row := by
    refine (Placed.meeting_eq (g := t.gatheredPlace melted c row)
      (k := t.gatheredPlace melted d first) (p := t.gatheredPlace melted d row)
      filled.different ?_ rfl rfl).2
    rw [made.placed_eq]
    exact List.mem_flatMap.mpr ⟨d, member, List.mem_map_of_mem held⟩
  rw [Function.comp_apply, met]
  exact (gathered_row_parts t melted d row).2.2

/-- The keys are the names of the gathered columns, which no column that stays
has, so they are claimed as they are. -/
theorem spread_columns_eq
    (apart : ∀ name ∈ melted.map t.name, name ∉ (t.others melted).map t.name) :
    (long.spreadTable (t.others melted).length ((t.others melted).length + 1)).columns =
      (t.project (t.others melted ++ melted)).columns := by
  obtain ⟨c, first, -, keys⟩ := made.leads_eq chosen distinct identifies
  have shown : (long.keyLeads (t.others melted).length ((t.others melted).length + 1)).map
      (fun k => (k.row.at (t.others melted).length).display) = melted.map t.name := by
    rw [keys, List.map_map]
    refine List.map_congr_left fun d _ => ?_
    exact congrArg Cell.display (gathered_row_parts t melted d first).2.1
  rw [spreadTable, others_last_two made.width, made.names, shown,
    Text.Names.claim_all_free distinct apart, project, List.map_append]

theorem spread_kinds_eq :
    (long.spreadTable (t.others melted).length ((t.others melted).length + 1)).kinds =
      (t.project (t.others melted ++ melted)).kinds := by
  obtain ⟨c, first, -, keys⟩ := made.leads_eq chosen distinct identifies
  simp only [spreadTable, others_last_two made.width, made.kinds_front chosen, keys, project,
    List.map_append, List.map_map]
  exact congrArg (_ ++ ·) (List.map_congr_left fun d member => made.kind_value member)

end Gathered

/-- **Spreading inverts gathering**: it gives back the table, the gathered
columns behind the others, when the columns that stay tell its rows apart, and
is refused otherwise. -/
theorem spread_of_gather (ok : t.WellFormed) (chosen : melted ≠ []) (different : melted.Nodup)
    (inside : ∀ c ∈ melted, c < t.width)
    (shared : ∀ c ∈ melted, ∀ d ∈ melted, t.kind c = t.kind d) :
    ∃ long, Step.apply ⟨.gather, [.columns melted]⟩ t = .ok long ∧
      let ids := t.others melted
      let back := Step.apply ⟨.spread, [.column ids.length, .column (ids.length + 1)]⟩ long
      (t.Identifies ids → back = .ok (t.project (ids ++ melted))) ∧
        (¬ t.Identifies ids → ∃ reason, back = .error (.inapplicable .spread reason)) := by
  have distinct := names_nodup ok.distinct different inside
  obtain ⟨long, gathered, made⟩ := gather_of_shared chosen shared
  have width := made.width
  rw [Step.apply_gather inside different, gathered]
  have insideKey : (t.others melted).length < long.width := by omega
  have insideValue : (t.others melted).length + 1 < long.width := by omega
  refine ⟨long, rfl, ?_⟩
  dsimp only
  rw [Step.apply_spread insideKey insideValue]
  refine ⟨fun identifies => ?_, fun mingled => ?_⟩
  · have filled := made.fills_grid chosen distinct identifies
    have apart : ∀ name ∈ melted.map t.name, name ∉ (t.others melted).map t.name := by
      intro name member kept
      obtain ⟨c, held, rfl⟩ := List.mem_map.mp member
      obtain ⟨d, stays, same⟩ := List.mem_map.mp kept
      obtain ⟨within, other⟩ := mem_others.mp stays
      exact other (name_inj ok.distinct within (inside c held) same ▸ held)
    have same : long.spreadTable (t.others melted).length ((t.others melted).length + 1) =
        t.project (t.others melted ++ melted) := by
      refine (Table.mk.injEq ..).mpr ⟨?_, ?_, ?_⟩
      · exact made.spread_columns_eq chosen distinct identifies apart
      · exact made.spread_kinds_eq chosen distinct identifies
      · exact made.spread_rows_eq chosen distinct identifies
    rw [spread_eq_ok_iff_grid.mpr ⟨filled, same⟩]
    rfl
  · cases ran : long.spread (t.others melted).length ((t.others melted).length + 1) with
    | error reason => exact ⟨reason, rfl⟩
    | ok out =>
      have filled := (spread_eq_ok_iff_grid.mp ran).1
      exact absurd (made.identifies_of_fills_grid chosen filled distinct) mingled

namespace Pivots

/-- Amounts by quarter, under names that gathering would like to have. -/
def quarters : Table where
  columns := ["KEY", "name", "VALUE"]
  kinds := [.number, .text, .number]
  rows := [[.number 1, .text "a", .number 2], [.number 3, .text "b", .number 4]]

/-- Two rows that only the noise of a sum tells apart. -/
def noisy : Table where
  columns := ["share", "amount"]
  kinds := [.number, .number]
  rows := [[.number 0.3, .number 1], [.number (0.1 + 0.2), .number 2]]

end Pivots

open Pivots in
/-- The quarters, gathered from right to left, come back in that order; the noisy
rows belong to one group. -/
theorem spread_of_gather_quarters :
    (∃ long, Step.apply ⟨.gather, [.columns [2, 0]]⟩ quarters = .ok long ∧
      Step.apply ⟨.spread, [.column 1, .column 2]⟩ long = .ok (quarters.project [1, 2, 0])) ∧
    ∃ long, Step.apply ⟨.gather, [.columns [1]]⟩ noisy = .ok long ∧
      ∃ reason, Step.apply ⟨.spread, [.column 1, .column 2]⟩ long =
        .error (.inapplicable .spread reason) := by
  have ok : quarters.WellFormed := ⟨by decide, rfl, by decide⟩
  have ok' : noisy.WellFormed := ⟨by decide, rfl, by decide⟩
  have apart : quarters.Identifies (quarters.others [2, 0]) := ⟨by decide, by decide⟩
  have mingled : ¬ noisy.Identifies (noisy.others [1]) := by
    rintro ⟨-, different⟩
    exact absurd different (by decide +kernel)
  obtain ⟨long, gathered, back, -⟩ :=
    @spread_of_gather quarters [2, 0] ok (by decide) (by decide) (by decide) (by decide)
  obtain ⟨long', gathered', -, refused⟩ :=
    @spread_of_gather noisy [1] ok' (by decide) (by decide) (by decide) (by decide)
  exact ⟨⟨long, gathered, back apart⟩, long', gathered', refused mingled⟩

end Table
end Reshape
