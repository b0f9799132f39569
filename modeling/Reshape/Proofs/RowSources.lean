import Reshape.Proofs.Alignment
import Reshape.Proofs.Choices
import Reshape.Proofs.Origins

/-! Where the rows of a step's value come from. A step leaves some columns as
they are, perhaps in other places, and each row it makes agrees there with a row
of the table below. Whatever is required of those columns alone is then included
in the table below: with every repetition where different rows come from
different rows, and otherwise with every row once. -/
namespace Reshape.Table

open scoped List

variable {t out required : Table} {mapping stays : List Nat} {source : Nat → Nat}

/-- Columns of one table as columns of another: those that stay come from
different columns of it. -/
structure ColumnsFrom (t : Table) (stays : List Nat) (source : Nat → Nat) : Prop where
  inRange : ∀ d ∈ stays, source d < t.width
  different : ∀ d ∈ stays, ∀ e ∈ stays, source d = source e → d = e

/-- A row that agrees with another in the columns that stay. -/
def Stands (stays : List Nat) (source : Nat → Nat) (made held : Row) : Prop :=
  ∀ d ∈ stays, (held.at (source d)).key = (made.at d).key

/-- Every row comes from some row. -/
structure Sourced (out t : Table) (stays : List Nat) (source : Nat → Nat) : Prop
    extends ColumnsFrom t stays source where
  rows : ∀ made ∈ out.rows, ∃ held ∈ t.rows, Stands stays source made held

/-- The rows come from different rows. -/
structure SourcedOnce (out t : Table) (stays : List Nat) (source : Nat → Nat) : Prop
    extends ColumnsFrom t stays source where
  rows : ∃ drawn, drawn <+~ t.rows ∧ List.Forall₂ (Stands stays source) out.rows drawn

theorem SourcedOnce.sourced (once : SourcedOnce out t stays source) :
    Sourced out t stays source := by
  obtain ⟨drawn, sub, agree⟩ := once.rows
  refine ⟨once.toColumnsFrom, fun made member => ?_⟩
  obtain ⟨held, chosen, stands⟩ := forall₂_exists_right agree member
  exact ⟨held, sub.subset chosen, stands⟩

/-- Different columns that hold the rows make a match. -/
theorem included_of_subperm (total : mapping.length = required.width) (different : mapping.Nodup)
    (inRange : ∀ c ∈ mapping, c < t.width) (rows : required.keys <+~ (t.project mapping).keys) :
    required.includedIn t = true :=
  included_in_iff.mpr ⟨mapping, total, different, inRange, subperm_iff_count_le.mp rows, nofun⟩

/-- Where each row occurs once, it is enough that each row occurs. -/
theorem dedup_included (total : mapping.length = required.width) (different : mapping.Nodup)
    (inRange : ∀ c ∈ mapping, c < t.width)
    (rows : ∀ row ∈ required.rows, ∃ held ∈ t.rows, (held.pick mapping).key = row.key) :
    required.dedup.includedIn t = true := by
  refine included_of_subperm total different inRange
    (List.subperm_of_subset (firsts_by_distinct Row.key required.rows) fun key member => ?_)
  obtain ⟨row, first, rfl⟩ := List.mem_map.mp member
  obtain ⟨held, inTable, same⟩ := rows row (mem_firsts_by first)
  exact List.mem_map.mpr ⟨_, List.mem_map_of_mem inTable, same⟩

/-- Rows agree in some columns just when they agree in each of them. -/
theorem key_pick_eq_iff {row other : Row} {columns : List Nat} :
    (row.pick columns).key = (other.pick columns).key ↔
      ∀ c ∈ columns, (row.at c).key = (other.at c).key := by
  simp only [Row.pick, Row.key, List.map_map, List.map_inj_left, Function.comp_apply]

/-- A row that agrees with another in some columns agrees column by column. -/
theorem key_at_of_agrees {row made : Row} {columns : List Nat}
    (same : (made.pick columns).key = row.key) {i : Nat} (inside : i < columns.length) :
    (made.at (columns.getD i 0)).key = (row.at i).key := by
  rw [← key_at, ← key_at, ← same, key_at, key_at, pick_at made inside,
    List.getD_eq_getElem _ _ inside]

/-- Required rows occur among the others, column by column. -/
theorem Matches.row {mode : Matching} (found : Matches mode required out mapping) {row : Row}
    (wanted : row ∈ required.rows) : ∃ made ∈ out.rows, ∀ i < required.width,
      (made.at (mapping.getD i 0)).key = (row.at i).key := by
  obtain ⟨picked, projected, same⟩ :=
    List.mem_map.mp (found.subperm.subset (List.mem_map_of_mem wanted))
  obtain ⟨made, held, rfl⟩ := List.mem_map.mp projected
  refine ⟨made, held, fun i inside => ?_⟩
  rw [← found.total] at inside
  exact key_at_of_agrees same inside

theorem Matches.getD_mem {mode : Matching} (found : Matches mode required out mapping) {i : Nat}
    (inside : i < required.width) : mapping.getD i 0 ∈ mapping := by
  rw [← found.total] at inside
  rw [List.getD_eq_getElem _ _ inside]
  exact List.getElem_mem inside

/-- A match that sends a column sends one of the required columns. -/
theorem Matches.sends {mode : Matching} (found : Matches mode required out mapping) {i d : Nat}
    (sent : mapping[i]? = some d) : i < required.width ∧ mapping.getD i 0 = d := by
  obtain ⟨inside, value⟩ := List.getElem?_eq_some_iff.mp sent
  exact ⟨found.total ▸ inside, (List.getD_eq_getElem _ _ inside).trans value⟩

/-- A match sends different columns to different columns. -/
theorem Matches.getD_inj {mode : Matching} (found : Matches mode required out mapping) {i j : Nat}
    (insideLeft : i < required.width) (insideRight : j < required.width)
    (same : mapping.getD i 0 = mapping.getD j 0) : i = j := by
  rw [← found.total] at insideLeft insideRight
  rw [List.getD_eq_getElem _ _ insideLeft, List.getD_eq_getElem _ _ insideRight] at same
  exact (found.different.getElem_inj_iff).mp same

theorem Matches.getD_ne {mode : Matching} (found : Matches mode required out mapping) {i j d : Nat}
    (insideLeft : i < required.width) (insideRight : j < required.width)
    (sent : mapping.getD j 0 = d) (other : i ≠ j) : mapping.getD i 0 ≠ d :=
  fun same => other (found.getD_inj insideLeft insideRight (same.trans sent.symm))

theorem Matches.exists_getD {mode : Matching} (found : Matches mode required out mapping) {d : Nat}
    (used : d ∈ mapping) : ∃ i < required.width, mapping.getD i 0 = d := by
  obtain ⟨i, inside, rfl⟩ := List.getElem_of_mem used
  exact ⟨i, found.total ▸ inside, List.getD_eq_getElem _ _ inside⟩

/-- A match sends a column to one of its kind, as soon as there is a row. -/
theorem Matches.kind_eq {mode : Matching} (found : Matches mode required out mapping)
    (shapedRequired : required.Shaped) (shaped : out.Shaped) (rows : required.rows ≠ []) {i : Nat}
    (inside : i < required.width) : required.kind i = out.kind (mapping.getD i 0) := by
  obtain ⟨row, wanted⟩ := List.exists_mem_of_ne_nil _ rows
  rw [← found.total] at inside
  rw [kind, found.kinds_eq shapedRequired shaped wanted, List.getD_eq_getElem _ _ inside,
    List.getD_eq_getElem _ _ (by simpa using inside), List.getElem_map]

theorem others_nodup (columns : List Nat) : (t.others columns).Nodup :=
  List.nodup_range.filter _

/-- What is required of columns that stay is required of the table below, with
every repetition. -/
theorem Matches.included_below (found : Matches .included required out mapping)
    (once : SourcedOnce out t stays source) (kept : ∀ d ∈ mapping, d ∈ stays) :
    required.includedIn t = true := by
  obtain ⟨drawn, sub, agree⟩ := once.rows
  -- Cut down to the match, the rows made and those they come from have equal keys.
  have same : (out.project mapping).keys =
      drawn.map fun held => (held.pick (mapping.map source)).key := by
    rw [keys, project, List.map_map]
    refine map_eq_of_forall₂ (agree.imp fun made held stands => ?_)
    simp only [Function.comp_apply, Row.pick, Row.key, List.map_map]
    exact List.map_congr_left fun d member => (stands d (kept d member)).symm
  have total : (mapping.map source).length = required.width := by simp [found.total]
  refine included_of_subperm total ?_ ?_ ?_
  · exact found.different.map_on fun d left e right =>
      once.different d (kept d left) e (kept e right)
  · intro c member
    obtain ⟨d, used, rfl⟩ := List.mem_map.mp member
    exact once.inRange d (kept d used)
  · refine found.subperm.trans ?_
    rw [same, keys, project, List.map_map]
    exact subperm_map _ sub

/-- What is required is required of the table below without the columns that do
not stay, once. -/
theorem Matches.without_included_below (found : Matches .included required out mapping)
    (sourced : Sourced out t stays source) {gone : List Nat}
    (kept : ∀ i < required.width, i ∉ gone → mapping.getD i 0 ∈ stays) :
    (required.without gone).includedIn t = true := by
  have stay {i : Nat} (member : i ∈ required.others gone) :
      i < required.width ∧ mapping.getD i 0 ∈ stays := by
    obtain ⟨inside, remains⟩ := List.mem_filter.mp member
    have bound := List.mem_range.mp inside
    exact ⟨bound, kept i bound (by simpa using remains)⟩
  have total : ((required.others gone).map fun i => source (mapping.getD i 0)).length =
      (required.drop gone).width := by simp [width, drop, project]
  refine dedup_included total ?_ ?_ ?_
  · refine (others_nodup gone).map_on fun i left j right same => ?_
    obtain ⟨boundLeft, stayLeft⟩ := stay left
    obtain ⟨boundRight, stayRight⟩ := stay right
    exact found.getD_inj boundLeft boundRight (sourced.different _ stayLeft _ stayRight same)
  · intro c member
    obtain ⟨i, remains, rfl⟩ := List.mem_map.mp member
    exact sourced.inRange _ (stay remains).2
  · intro row member
    obtain ⟨whole, wanted, rfl⟩ := List.mem_map.mp member
    obtain ⟨made, produced, agrees⟩ := found.row wanted
    obtain ⟨held, inTable, stands⟩ := sourced.rows made produced
    refine ⟨held, inTable, ?_⟩
    simp only [Row.pick, Row.key, List.map_map]
    refine List.map_congr_left fun i remains => ?_
    exact (stands _ (stay remains).2).trans (agrees i (stay remains).1)

theorem others_length {columns : List Nat} (different : columns.Nodup)
    (inRange : ∀ c ∈ columns, c < t.width) :
    (t.others columns).length + columns.length = t.width := by
  have parts := List.length_eq_length_filter_add (l := List.range t.width) (· ∈ columns)
  rw [(filter_mem_perm different inRange).length_eq, List.length_range] at parts
  have rest : t.others columns = (List.range t.width).filter fun c => !decide (c ∈ columns) := by
    simp [others, positions]
  rw [rest]
  omega

/-- Listed columns come from the columns at their places in the list. -/
theorem columns_from_listed {columns : List Nat} (different : columns.Nodup)
    (inRange : ∀ c ∈ columns, c < t.width) :
    ColumnsFrom t (List.range columns.length) (columns.getD · 0) := by
  constructor
  · intro d member
    rw [List.getD_eq_getElem _ _ (List.mem_range.mp member)]
    exact inRange _ (List.getElem_mem _)
  · intro d left e right same
    rw [List.getD_eq_getElem _ _ (List.mem_range.mp left),
      List.getD_eq_getElem _ _ (List.mem_range.mp right)] at same
    exact different.getElem_inj_iff.mp same

theorem stands_listed (held added : Row) (columns : List Nat) :
    Stands (List.range columns.length) (columns.getD · 0) (held.pick columns ++ added) held := by
  intro d member
  have inside := List.mem_range.mp member
  have shown : (held.pick columns ++ added).at d = (held.pick columns).at d :=
    List.getD_append _ _ _ _ (by simpa [Row.pick] using inside)
  rw [shown, pick_at held inside]
  exact congrArg (fun c => (held.at c).key) (List.getD_eq_getElem _ _ inside)

theorem columns_from_all : ColumnsFrom t t.positions id :=
  ⟨fun _ member => List.mem_range.mp member, fun _ _ _ _ same => same⟩

theorem project_sourced {columns : List Nat} (different : columns.Nodup)
    (inRange : ∀ c ∈ columns, c < t.width) :
    SourcedOnce (t.project columns) t (List.range columns.length) (columns.getD · 0) := by
  refine ⟨columns_from_listed different inRange, t.rows, .refl _, ?_⟩
  refine List.forall₂_map_left_iff.mpr (List.forall₂_same.mpr fun held _ => ?_)
  simpa using stands_listed held [] columns

theorem filter_sourced (keep : Row → Bool) :
    SourcedOnce { t with rows := t.rows.filter keep } t t.positions id :=
  ⟨columns_from_all, t.rows.filter keep, List.filter_sublist.subperm,
    List.forall₂_same.mpr fun _ _ _ _ => rfl⟩

theorem append_sourced (shaped : t.Shaped) (name : String) (kind : Kind) {cells : List Cell}
    (height : cells.length = t.rows.length) :
    SourcedOnce (t.append name kind cells) t t.positions id := by
  refine ⟨columns_from_all, t.rows, .refl _,
    List.forall₂_iff_get.mpr ⟨by simp [append, height], ?_⟩⟩
  intro i _ inside d member
  have short : d < t.rows[i].length :=
    shaped.row_length (List.getElem_mem inside) ▸ List.mem_range.mp member
  simp [append, Row.at, List.getElem?_append_left, short]

theorem running_totals_length (total : Float) (values : List Float) :
    (runningTotals total values).length = values.length := by
  induction values generalizing total with
  | nil => rfl
  | cons x rest ih => simp [runningTotals, ih]

theorem group_sum_sourced {groups : List Nat} {target : Option Nat} {f : Aggregate}
    (different : groups.Nodup) (inRange : ∀ c ∈ groups, c < t.width)
    (made : t.groupSum groups target f = .ok out) :
    SourcedOnce out t (List.range groups.length) (groups.getD · 0) := by
  obtain ⟨-, -, rfl⟩ := group_sum_eq_ok.mp made
  refine ⟨columns_from_listed different inRange,
    firstsBy (fun row => (row.pick groups).key) t.rows, (firsts_by_sublist _ _).subperm, ?_⟩
  exact List.forall₂_map_left_iff.mpr (List.forall₂_same.mpr fun held _ =>
    stands_listed held _ groups)

theorem gather_sourced {melted : List Nat} (made : t.gather melted = .ok out) :
    Sourced out t (List.range (t.others melted).length) ((t.others melted).getD · 0) := by
  obtain ⟨first, -, -, rfl⟩ := gather_eq_ok.mp made
  refine ⟨columns_from_listed (others_nodup melted) others_lt, fun made member => ?_⟩
  obtain ⟨c, -, member⟩ := List.mem_flatMap.mp member
  obtain ⟨held, inTable, rfl⟩ := List.mem_map.mp member
  exact ⟨held, inTable, stands_listed held _ _⟩

/-- Putting new entries in the place of one, in three parts. -/
theorem splice_eq {α : Type} {width place : Nat} (inside : place < width) (new : List α)
    (old : Nat → α) : Reshape.splice width place [] new old = (List.range place).map old ++
      (new ++ (List.range' (place + 1) (width - place - 1)).map old) := by
  obtain ⟨after, rfl⟩ := Nat.exists_eq_add_of_lt inside
  have parts : List.range (place + after + 1) =
      List.range place ++ place :: List.range' (place + 1) after := by
    rw [List.range_eq_range', List.range_eq_range', ← List.range'_succ, Nat.add_assoc,
      ← List.range'_append_1, Nat.zero_add]
  have kept {l : List Nat} (apart : place ∉ l) :
      (l.flatMap fun c => if c = place then new else if c ∈ [] then [] else [old c]) =
        l.map old := by
    rw [List.map_eq_flatMap]
    refine List.flatMap_congr fun c member => ?_
    simp [ne_of_mem_of_not_mem member apart]
  have rest : place + after + 1 - place - 1 = after := by omega
  rw [Reshape.splice, parts, List.flatMap_append, List.flatMap_cons, kept (by simp), kept (by simp),
    if_pos rfl, rest]

theorem splice_getD_before {α : Type} {width place d : Nat} (inside : place < width) (new : List α)
    (old : Nat → α) (default : α) (before : d < place) :
    (Reshape.splice width place [] new old).getD d default = old d := by
  rw [splice_eq inside, List.getD_append _ _ _ _ (by simpa using before)]
  simp [before]

theorem splice_getD_new {α : Type} {width place d : Nat} (inside : place < width) {new : List α}
    (old : Nat → α) (default : α) (added : d < new.length) :
    (Reshape.splice width place [] new old).getD (place + d) default = new.getD d default := by
  rw [splice_eq inside, List.getD_append_right _ _ _ _ (by simp),
    List.getD_append _ _ _ _ (by simpa using added)]
  simp

theorem splice_getD_after {α : Type} {width place d : Nat} (inside : place < width) (new : List α)
    (old : Nat → α) (default : α) (after : place < d) (within : d < width) :
    (Reshape.splice width place [] new old).getD (d - 1 + new.length) default = old d := by
  rw [splice_eq inside, ← List.append_assoc, List.getD_append_right _ _ _ _ (by simp; omega)]
  have position : d - 1 + new.length - (place + new.length) = d - (place + 1) := by omega
  have bound : d - (place + 1) < width - place - 1 := by omega
  have value : place + 1 + (d - (place + 1)) = d := by omega
  simp [position, bound, value]

theorem split_column_width {column : Nat} (inside : column < t.width)
    (parts : List (List Char × List Char)) : (t.splitColumn column parts).width = t.width + 1 := by
  rw [split_column_eq, width]
  simp only [splice]
  rw [splice_eq inside]
  simp
  omega

/-- Both halves are columns of texts or of numbers. -/
theorem split_column_kind {column : Nat} (inside : column < t.width)
    (parts : List (List Char × List Char)) {half : Nat} (isHalf : half < 2) :
    (t.splitColumn column parts).kind (column + half) = .text ∨
      (t.splitColumn column parts).kind (column + half) = .number := by
  have fragments (l : List (List Char)) :
      (Cell.ofFragments l).1 = .text ∨ (Cell.ofFragments l).1 = .number := by
    rw [Cell.ofFragments]
    split
    · exact .inr rfl
    · exact .inl rfl
  rw [split_column_eq, kind]
  simp only [splice]
  rw [splice_getD_new inside _ _ (by simpa using isHalf)]
  obtain rfl | rfl : half = 0 ∨ half = 1 := by omega
  · exact fragments _
  · exact fragments _

/-- All columns but the two halves come from the columns that were there. -/
theorem columns_from_split {column : Nat} (inside : column < t.width) :
    ColumnsFrom t ((List.range (t.width + 1)).filter fun d => d ≠ column ∧ d ≠ column + 1)
      (fun d => if d < column then d else d - 1) := by
  have stay {d : Nat}
      (member : d ∈ (List.range (t.width + 1)).filter fun d => d ≠ column ∧ d ≠ column + 1) :
      d < t.width + 1 ∧ d ≠ column ∧ d ≠ column + 1 := by
    simpa using member
  refine ⟨fun d member => ?_, fun d left e right same => ?_⟩
  · have place := stay member
    split <;> omega
  · have placeLeft := stay left
    have placeRight := stay right
    split at same <;> split at same <;> omega

theorem stands_split {column : Nat} (inside : column < t.width) (left right : Cell) (held : Row) :
    Stands ((List.range (t.width + 1)).filter fun d => d ≠ column ∧ d ≠ column + 1)
      (fun d => if d < column then d else d - 1)
      (Reshape.splice t.width column [] [left, right] held.at) held := by
  intro d remains
  have place : d < t.width + 1 ∧ d ≠ column ∧ d ≠ column + 1 := by simpa using remains
  dsimp only
  split
  · rename_i before
    exact congrArg Cell.key (splice_getD_before inside _ _ _ before).symm
  · have shifted := splice_getD_after inside [left, right] held.at default
      (d := d - 1) (by omega) (by omega)
    have position : d - 1 - 1 + [left, right].length = d := by simp; omega
    rw [position] at shifted
    exact congrArg Cell.key shifted.symm

/-- The halves stand in the place of the cell that is split. -/
theorem halves_at {column : Nat} (inside : column < t.width) (left right : Cell) (held : Row) :
    let made : Row := Reshape.splice t.width column [] [left, right] held.at
    made.at column = left ∧ made.at (column + 1) = right :=
  ⟨splice_getD_new (d := 0) inside held.at default Nat.two_pos,
    splice_getD_new (d := 1) inside held.at default Nat.one_lt_two⟩

theorem split_column_sourced {column : Nat} (inside : column < t.width)
    (parts : List (List Char × List Char)) :
    Sourced (t.splitColumn column parts) t
      ((List.range (t.width + 1)).filter fun d => d ≠ column ∧ d ≠ column + 1)
      (fun d => if d < column then d else d - 1) := by
  refine ⟨columns_from_split inside, fun made member => ?_⟩
  rw [split_column_eq] at member
  obtain ⟨held, inTable, halves, given, rfl⟩ := mem_zip_with member
  obtain ⟨left, -, right, -, rfl⟩ := mem_zip_with given
  exact ⟨held, inTable, stands_split inside left right held⟩

/-- Each cell of a spread row below a spread column is the value of some row
that agrees with it in the columns in front. -/
theorem spread_row {key value : Nat} (made : t.spread key value = .ok out) {row : Row}
    (member : row ∈ out.rows) {d : Nat} (later : (t.others [key, value]).length ≤ d)
    (inside : d < out.width) : ∃ held ∈ t.rows,
      Stands (List.range (t.others [key, value]).length) ((t.others [key, value]).getD · 0)
        row held ∧ held.at value = row.at d := by
  obtain ⟨-, -, -, rows, grid, rfl⟩ := spread_eq_ok.mp made
  obtain ⟨g, first, cells, read, rfl⟩ := forall₂_exists_left grid member
  obtain ⟨wide, reads⟩ := List.forall₂_iff_get.mp read
  have within : d - (t.others [key, value]).length < cells.length := by
    simp only [width, List.length_append, List.length_map, claim_all_length] at inside
    omega
  obtain ⟨p, found, cell⟩ := reads _ (wide ▸ within) within
  obtain ⟨lead, -, rfl⟩ := List.mem_map.mp (mem_firsts_by first)
  obtain ⟨held, inTable, rfl⟩ := List.mem_map.mp (List.mem_of_find?_eq_some found)
  -- The row found for the group agrees with the row that stands for the group.
  have placed := List.find?_some found
  have group : (held.pick (t.others [key, value])).key = (lead.pick (t.others [key, value])).key :=
    (of_decide_eq_true placed).1
  refine ⟨held, inTable, fun e front => ?_, ?_⟩
  · have chosen : (t.others [key, value]).getD e 0 ∈ t.others [key, value] := by
      rw [List.getD_eq_getElem _ _ (List.mem_range.mp front)]
      exact List.getElem_mem _
    exact (key_pick_eq_iff.mp group _ chosen).trans (stands_listed lead cells _ e front)
  · refine cell.trans ?_
    rw [Row.at, List.getD_append_right _ _ _ _ (by simpa [Row.pick] using later)]
    simp [Row.pick, List.getElem?_eq_getElem within]

end Reshape.Table
