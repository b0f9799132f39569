import Reshape.Proofs.InclusionOrder
import Reshape.Proofs.Reshaping
import Reshape.Proofs.SpreadGrid

/-! Gathering inverts spreading. Where keys are texts and none of them has the name
of a column that stays, the keys become column names unchanged, so the names that
gathering writes into its rows are the keys again. A spread table has a cell for
every point of the grid, so each row comes back once. The columns that stay are
those of the first row of each group; by their keys they are the same in all of
its rows. -/
namespace Reshape.Table

open scoped List

variable {t long wide : Table} {melted : List Nat} {key value : Nat}

theorem eq_text_of_kind {cell : Cell} (text : cell.kind = .text) : cell = .text cell.display := by
  cases cell with
  | text s => rfl
  | number | boolean => cases text

theorem flat_map_range' {α β : Type} {l : List α} {n : Nat} {f : Nat → List β} {g : α → List β}
    (same : ∀ j (inside : j < l.length), f (n + j) = g l[j]) :
    (List.range' n l.length).flatMap f = l.flatMap g := by
  rw [List.flatMap_def, List.flatMap_def]
  refine congrArg List.flatten (List.ext_getElem (by simp) fun j left _ => ?_)
  have inside : j < l.length := by simpa using left
  simp [same j inside]

/-- The columns of a spread table other than those it made are the ones in
front. -/
theorem others_spread_out (exactly : ∀ c, c ∈ melted ↔
    (t.others [key, value]).length ≤ c ∧ c < (t.spreadTable key value).width) :
    (t.spreadTable key value).others melted = List.range (t.others [key, value]).length := by
  have width := spread_table_width t key value
  rw [others, positions, width, List.range_add, List.filter_append, List.filter_eq_self.mpr,
    List.filter_eq_nil_iff.mpr, List.append_nil]
  · intro c behind
    obtain ⟨j, inside, rfl⟩ := List.mem_map.mp behind
    have bound := List.mem_range.mp inside
    simp only [exactly, decide_eq_true_eq, not_not]
    omega
  · intro c front
    have before := List.mem_range.mp front
    simp only [exactly, decide_eq_true_eq]
    omega

section Keys

variable (shaped : t.Shaped) (texts : t.kind key = .text)
include shaped texts

/-- The keys of a text column are its cells. -/
theorem placed_key_eq {p : Placed} (held : p ∈ t.placed key value) :
    p.row ∈ t.rows ∧ p.row.at key = .text (p.row.at key).display ∧ p.key = p.row.at key := by
  obtain ⟨inTable, -, own⟩ := placed_row held
  have text := eq_text_of_kind ((shaped.kind_at inTable key).trans texts)
  refine ⟨inTable, text, own.trans ?_⟩
  rw [text]
  rfl

variable (free : ∀ row ∈ t.rows, ∀ c ∈ t.others [key, value], row.at key ≠ .text (t.name c))
include free

/-- The keys become column names as they are when no column that stays has the
name of one. -/
theorem spread_table_columns :
    (t.spreadTable key value).columns = (t.others [key, value]).map t.name ++
      (t.keyLeads key value).map fun k => (k.row.at key).display := by
  refine congrArg ((t.others [key, value]).map t.name ++ ·) (Text.Names.claim_all_free ?_ ?_)
  · refine List.Nodup.of_map Cell.text ?_
    have distinct := firsts_by_distinct Placed.key (t.placed key value)
    rw [List.map_map]
    refine (List.map_congr_left fun k lead => ?_) ▸ distinct
    obtain ⟨-, text, own⟩ := placed_key_eq shaped texts (mem_firsts_by lead)
    exact own.trans text
  · intro name member kept
    obtain ⟨k, lead, rfl⟩ := List.mem_map.mp member
    obtain ⟨c, stays, same⟩ := List.mem_map.mp kept
    obtain ⟨inTable, text, -⟩ := placed_key_eq shaped texts (mem_firsts_by lead)
    exact free _ inTable c stays (text.trans (congrArg Cell.text same.symm))

/-- The name of a column that spreading makes, as a cell, is the key it stands
for. -/
theorem spread_name_eq {j : Nat} (inside : j < (t.keyLeads key value).length) :
    .text ((t.spreadTable key value).name ((t.others [key, value]).length + j)) =
      (t.keyLeads key value)[j].row.at key := by
  rw [Table.name, spread_table_columns shaped texts free,
    List.getD_append_right _ _ _ _ (by simp)]
  simp only [List.length_map, Nat.add_sub_cancel_left]
  rw [List.getD_eq_getElem _ _ (by simpa using inside), List.getElem_map]
  exact (placed_key_eq shaped texts (mem_firsts_by (List.getElem_mem inside))).2.1.symm

variable (filled : t.FillsGrid key value)
include filled

/-- A cell of a spread table, gathered back, makes a row with the keys of the row
that it was read from. -/
theorem gathered_spread_row
    (stay : (t.spreadTable key value).others melted = List.range (t.others [key, value]).length)
    {g : Placed} (first : g ∈ t.groupLeads key value) {j : Nat}
    (inside : j < (t.keyLeads key value).length) :
    ((t.spreadTable key value).gatheredRow melted ((t.others [key, value]).length + j)
        (t.spreadRow key value g)).key =
      ((Placed.meeting (t.placed key value) g (t.keyLeads key value)[j]).row.pick
        (t.others [key, value] ++ [key, value])).key := by
  have lead := List.getElem_mem inside
  obtain ⟨held, group, same⟩ := filled.meeting_placed first lead
  obtain ⟨front, cells⟩ := spread_row_parts t key value g
  rw [(placed_row held).2.1, (placed_row (mem_firsts_by first)).2.1] at group
  rw [(placed_row held).2.2, (placed_row (mem_firsts_by lead)).2.2] at same
  rw [gatheredRow, stay, front, cells j inside, spread_name_eq shaped texts free inside]
  simp only [Row.key, Row.pick, List.map_append, List.map_cons, List.map_nil] at group ⊢
  rw [group, same]

variable (different : melted.Nodup)
  (exactly : ∀ c, c ∈ melted ↔
    (t.others [key, value]).length ≤ c ∧ c < (t.spreadTable key value).width)
  (made : Gathered (t.spreadTable key value) melted long)
include different exactly made

/-- Gathered back, the rows of a spread table are those of the table, the columns
that stay in front of keys and values. -/
theorem gathered_keys_perm :
    long.keys ~ (t.project (t.others [key, value] ++ [key, value])).keys := by
  have spreadOut : melted ~ List.range' (t.others [key, value]).length
      (t.keyLeads key value).length := by
    refine (List.perm_ext_iff_of_nodup different List.nodup_range').mpr fun c => ?_
    rw [exactly, spread_table_width, List.mem_range'_1]
  let row (c : Nat) (g : Placed) : Row :=
    ((t.spreadTable key value).gatheredRow melted c (t.spreadRow key value g)).key
  let below (p : Placed) : Row := (p.row.pick (t.others [key, value] ++ [key, value])).key
  calc long.keys
    _ = melted.flatMap fun c => (t.groupLeads key value).map (row c) := by
      rw [keys, made.rows, List.map_flatMap]
      simp only [spreadTable, List.map_map]
      rfl
    _ ~ (List.range' (t.others [key, value]).length (t.keyLeads key value).length).flatMap
        fun c => (t.groupLeads key value).map (row c) := spreadOut.flatMap_right _
    _ = (t.keyLeads key value).flatMap fun k => (t.groupLeads key value).map fun g =>
        below (Placed.meeting (t.placed key value) g k) :=
      flat_map_range' fun j inside => List.map_congr_left fun g first =>
        gathered_spread_row shaped texts free filled (others_spread_out exactly) first inside
    _ = ((t.keyLeads key value).flatMap fun k => (t.groupLeads key value).map fun g =>
        Placed.meeting (t.placed key value) g k).map below := by
      rw [List.map_flatMap]
      simp only [List.map_map]
      rfl
    _ ~ (t.placed key value).map below := filled.meetings_perm.map below
    _ = (t.project (t.others [key, value] ++ [key, value])).keys := by
      rw [placed, keys, project, List.map_map, List.map_map]
      rfl

/-- The table is found in the gathered one: its columns that stay in front, then
the keys and the values. -/
theorem gathered_equivalent (insideKey : key < t.width) (insideValue : value < t.width) :
    long.equivalentTo t = true := by
  have pair : [key, value].Nodup := by simp [filled.apart]
  have inside : ∀ c ∈ [key, value], c < t.width := by simp [insideKey, insideValue]
  have size : (t.others [key, value]).length + 2 = t.width := others_length pair inside
  have width : long.width = t.width := by
    rw [made.width, others_spread_out exactly, List.length_range, size]
  refine equivalent_of_perm (t.others [key, value] ++ [key, value]) ?_ ?_ ?_ width
    (gathered_keys_perm shaped texts free filled different exactly made)
  · rw [width, List.length_append]
    exact size
  · exact List.nodup_append.mpr ⟨others_nodup _, pair, fun c stays d gone same =>
      (mem_others.mp stays).2 (same ▸ gone)⟩
  · intro c member
    rcases List.mem_append.mp member with stays | gone
    · exact others_lt c stays
    · exact inside c gone

end Keys

/-- **Gathering inverts spreading**: where keys are texts and no key has the name
of a column that stays, gathering exactly the columns that spreading made, in any
order, succeeds and gives back the same table up to the order of its rows and
columns, its names and the noise that keys absorb. -/
theorem gather_of_spread (ok : t.WellFormed) (texts : t.kind key = .text)
    (ran : Step.apply ⟨.spread, [.column key, .column value]⟩ t = .ok wide)
    (free : ∀ row ∈ t.rows, ∀ c ∈ t.others [key, value], row.at key ≠ .text (t.name c))
    (different : melted.Nodup)
    (exactly : ∀ c, c ∈ melted ↔ (t.others [key, value]).length ≤ c ∧ c < wide.width) :
    ∃ long, Step.apply ⟨.gather, [.columns melted]⟩ wide = .ok long ∧
      long.equivalentTo t = true ∧ t.equivalentTo long = true := by
  have reads : key < t.width ∧ value < t.width ∧ t.spread key value = .ok wide := by
    cases Step.applied_of_ok ran with
    | spread _ takenKey takenValue made =>
      obtain ⟨readKey, insideKey⟩ := Step.take_column_eq_ok.mp takenKey
      obtain ⟨readValue, insideValue⟩ := Step.take_column_eq_ok.mp takenValue
      cases readKey
      cases readValue
      exact ⟨insideKey, insideValue, made⟩
    | select op | unite op | filter op | separate op | gather op | gatherNeg op | groupSum op
    | cumsum op | mutate op | mutateCustom op => cases op
  obtain ⟨insideKey, insideValue, made⟩ := reads
  have shapedWide := spread_shaped ok.shaped made
  have kinds {c : Nat} (member : c ∈ melted) : wide.kind c = t.kind value :=
    spread_kind made ((exactly c).mp member).1 ((exactly c).mp member).2
  have inside : ∀ c ∈ melted, c < wide.width := fun c member => ((exactly c).mp member).2
  obtain ⟨filled, rfl⟩ := spread_eq_ok_iff_grid.mp made
  have chosen : melted ≠ [] := by
    obtain ⟨row, held⟩ := List.exists_mem_of_ne_nil _ filled.rows
    obtain ⟨k, lead, -⟩ := firsts_by_represent Placed.key (List.mem_map_of_mem held)
    refine List.ne_nil_of_mem ((exactly _).mpr ⟨le_rfl, ?_⟩)
    have some : 0 < (t.keyLeads key value).length := List.length_pos_of_mem lead
    rw [spread_table_width]
    omega
  obtain ⟨long, gathered, parts⟩ :=
    gather_of_shared chosen fun c left d right => (kinds left).trans (kinds right).symm
  have equivalent := gathered_equivalent ok.shaped texts free filled different exactly parts
    insideKey insideValue
  obtain ⟨there, back⟩ := (equivalent_to_iff_mutual ok.shaped).mp equivalent
  rw [Step.apply_gather inside different, gathered]
  exact ⟨long, rfl, equivalent,
    (equivalent_to_iff_mutual (gather_shaped shapedWide gathered)).mpr ⟨back, there⟩⟩

namespace Pivots

/-- Amounts by share and quarter. The noise of a sum hides that two rows belong
to one share. -/
def shares : Table where
  columns := ["quarter", "share", "amount"]
  kinds := [.text, .number, .number]
  rows := [[.text "Q1", .number 0.3, .number 1], [.text "Q2", .number 0.5, .number 2],
    [.text "Q2", .number (0.1 + 0.2), .number 3], [.text "Q1", .number 0.5, .number 4]]

/-- The quarters as columns. -/
def sharesByQuarter : Table where
  columns := ["share", "Q1", "Q2"]
  kinds := [.number, .number, .number]
  rows := [[.number 0.3, .number 1, .number 3], [.number 0.5, .number 4, .number 2]]

end Pivots

open Pivots in
theorem gather_of_spread_shares :
    Step.apply ⟨.spread, [.column 0, .column 2]⟩ shares = .ok sharesByQuarter ∧
      ∃ long, Step.apply ⟨.gather, [.columns [2, 1]]⟩ sharesByQuarter = .ok long ∧
        long.equivalentTo shares = true ∧ shares.equivalentTo long = true := by
  have ok : shares.WellFormed := ⟨by decide, rfl, by decide⟩
  have ran : Step.apply ⟨.spread, [.column 0, .column 2]⟩ shares = .ok sharesByQuarter := by
    decide +kernel
  have stay : (shares.others [0, 2]).length = 1 ∧ sharesByQuarter.width = 3 := by decide
  refine ⟨ran, gather_of_spread ok rfl ran (by decide) (by decide) fun c => ?_⟩
  rw [stay.1, stay.2]
  simp only [List.mem_cons, List.not_mem_nil, or_false]
  omega

end Reshape.Table
