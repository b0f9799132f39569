import Reshape.Proofs.Shape
import Reshape.Proofs.StaticKinds

/-! Where the cells and the column names of a table come from. One step keeps a
cell, makes a cell of a column name, computes a number or a truth value, joins
two texts, or takes one apart; and it keeps a name, adds one of a few fixed names, or derives a
name from what its table holds. Later modules follow these cases through whole
programs and never look at an operator again. -/
namespace Reshape

/-- The operators whose new columns have names derived from the names and cells
of their table. Gathering and running totals have fixed names instead. -/
def Operator.derivesNames : Operator → Bool
  | .unite | .separate | .spread | .groupSum | .mutate | .mutateCustom => true
  | _ => false

/-- Whether, in a sequence of operators with the outermost first, a gathering
one stands outside one with a property. -/
def gathersOver (property : Operator → Bool) : List Operator → Bool
  | [] => false
  | op :: inner => (op.gathers && inner.any property) || gathersOver property inner

/-- The columns that a gathering step turns into rows. -/
def Step.melted (step : Step) (t : Table) : List Nat :=
  match step.operator, step.argument? 1 with
  | .gather, some (.columns listed) => listed
  | .gatherNeg, some (.columns kept) => t.others kept
  | _, _ => []

/-- The cells that a uniting step writes, one for each row: what joins the texts
of its two columns there. -/
def Step.united (step : Step) (t : Table) : List Cell :=
  match step.operator, step.argument? 1, step.argument? 2, step.argument? 3 with
  | .unite, some (.column left), some (.column right), some (.constant (.text separator)) =>
    t.rows.map fun row => Table.joinCells separator (row.at left) (row.at right)
  | _, _, _, _ => []

/-- The names of the columns that some steps gather, each on the table that the
steps beneath it make. -/
inductive GathersName (inputs : List Table) (input : Nat) : List Step → String → Prop
  | here {step : Step} {inner : List Step} {below : Table} {c : Nat}
      (made : evalSteps inputs input inner = .ok below) (chosen : c ∈ step.melted below) :
      GathersName inputs input (step :: inner) (below.name c)
  | beneath {step : Step} {inner : List Step} {name : String}
      (gathered : GathersName inputs input inner name) :
      GathersName inputs input (step :: inner) name

/-- Whether a program has a value that includes a target. -/
def Program.produces (p : Program) (inputs : List Table) (target : Table) : Bool :=
  match p.eval inputs with
  | .ok out => target.includedIn out
  | .error _ => false

theorem Program.produces_iff {p : Program} {inputs : List Table} {target : Table} :
    p.produces inputs target = true ↔
      ∃ out, p.eval inputs = .ok out ∧ target.includedIn out = true := by
  rw [produces]
  cases p.eval inputs <;> simp

/-- What a name is when it is claimed: the hint itself, or the hint with a
number behind it. -/
inductive Text.NamedAfter (hint : String) : String → Prop
  | plain : NamedAfter hint hint
  | numbered (n : Nat) : NamedAfter hint (Names.numbered hint n)

namespace Text.Names

theorem claim_named_after (names : Names) (hint : String) :
    NamedAfter hint (names.claim hint).1 := by
  rw [claim]
  split
  · exact .numbered _
  · exact .plain

theorem claim_all_named_after {names : Names} {hints : List String} {name : String}
    (member : name ∈ (names.claimAll hints).1) : ∃ hint ∈ hints, NamedAfter hint name := by
  induction hints generalizing names with
  | nil => cases member
  | cons hint rest ih =>
    rcases List.mem_cons.mp member with rfl | later
    · exact ⟨hint, List.mem_cons_self, claim_named_after names hint⟩
    · obtain ⟨other, held, named⟩ := ih later
      exact ⟨other, List.mem_cons_of_mem _ held, named⟩

end Text.Names

namespace Table

variable {t out : Table}

theorem mem_cells {cell : Cell} : cell ∈ t.cells ↔ ∃ row ∈ t.rows, cell ∈ row :=
  List.mem_flatten

theorem Shaped.row_length (shaped : t.Shaped) {row : Row} (held : row ∈ t.rows) :
    row.length = t.width := by
  rw [width, ← shaped.typed, ← shaped.filled row held, List.length_map]

/-- What stands in a row below a column is a cell of the table. -/
theorem Shaped.at_mem_cells (shaped : t.Shaped) {row : Row} (held : row ∈ t.rows) {c : Nat}
    (inside : c < t.width) : row.at c ∈ t.cells := by
  rw [← shaped.row_length held] at inside
  rw [Row.at, List.getD_eq_getElem _ _ inside]
  exact mem_cells.mpr ⟨row, held, List.getElem_mem inside⟩

theorem Shaped.pick_subset_cells (shaped : t.Shaped) {row : Row} (held : row ∈ t.rows)
    {columns : List Nat} (inside : ∀ c ∈ columns, c < t.width) :
    ∀ cell ∈ row.pick columns, cell ∈ t.cells := by
  intro cell member
  obtain ⟨c, chosen, rfl⟩ := List.mem_map.mp member
  exact shaped.at_mem_cells held (inside c chosen)

theorem name_mem {c : Nat} (inside : c < t.width) : t.name c ∈ t.columns := by
  rw [name, List.getD_eq_getElem _ _ inside]
  exact List.getElem_mem inside

theorem names_subset {columns : List Nat} (inside : ∀ c ∈ columns, c < t.width) :
    ∀ name ∈ columns.map t.name, name ∈ t.columns := by
  intro name member
  obtain ⟨c, chosen, rfl⟩ := List.mem_map.mp member
  exact name_mem (inside c chosen)

/-- A table that is included has only keys of the other's cells. -/
theorem included_cells {target : Table} (shaped : t.Shaped) (included : target.includedIn t = true)
    {cell : Cell} (member : cell ∈ target.cells) : ∃ held ∈ t.cells, held.key = cell.key := by
  obtain ⟨mapping, found⟩ := included_in_iff.mp included
  obtain ⟨row, wanted, inRow⟩ := mem_cells.mp member
  obtain ⟨picked, projected, same⟩ :=
    List.mem_map.mp (found.subperm.subset (List.mem_map_of_mem wanted))
  obtain ⟨other, held, rfl⟩ := List.mem_map.mp projected
  have keyed : cell.key ∈ (other.pick mapping).key := same ▸ List.mem_map_of_mem inRow
  obtain ⟨source, picked, key⟩ := List.mem_map.mp keyed
  exact ⟨source, shaped.pick_subset_cells held found.inRange source picked, key⟩

/-- A table with rows is included only in a table with rows. -/
theorem included_rows {target : Table} (included : target.includedIn t = true)
    (rows : target.rows ≠ []) : t.rows ≠ [] := by
  obtain ⟨mapping, found⟩ := included_in_iff.mp included
  intro none
  have empty : target.keys = [] := by
    simpa [keys, project, none] using found.subperm
  exact rows (List.map_eq_nil_iff.mp empty)

end Table

namespace Step

variable {step : Step} {t out : Table}

/-- The ways in which a cell gets into the value of a step. -/
inductive CellOrigin (step : Step) (t : Table) (cell : Cell) : Prop
  | kept (held : cell ∈ t.cells)
  | named (gathers : step.operator.gathers = true) {c : Nat} (chosen : c ∈ step.melted t)
      (inside : c < t.width) (same : cell = .text (t.name c))
  | computed (creates : step.operator.createsValues = true) (noText : cell.kind ≠ .text)
  | united (op : step.operator = .unite) (written : cell ∈ step.united t)
  | separated (op : step.operator = .separate)

/-- The ways in which a column of the value of a step gets its name. -/
inductive NameOrigin (step : Step) (t : Table) (name : String) : Prop
  | kept (held : name ∈ t.columns)
  | fixed (adds : step.operator.gathers = true ∨ step.operator = .cumsum) {hint : String}
      (known : hint ∈ ["KEY", "VALUE", "cumsum"]) (named : Text.NamedAfter hint name)
  | derived (derives : step.operator.derivesNames = true)

theorem gather_cell_origin (shaped : t.Shaped) (inside : ∀ c ∈ step.melted t, c < t.width)
    (made : t.gather (step.melted t) = .ok out) (gathers : step.operator.gathers = true)
    {cell : Cell} (member : cell ∈ out.cells) : step.CellOrigin t cell := by
  obtain ⟨first, -, -, rfl⟩ := Table.gather_eq_ok.mp made
  obtain ⟨row, block, member⟩ := Table.mem_cells.mp member
  obtain ⟨c, chosen, made⟩ := List.mem_flatMap.mp block
  obtain ⟨old, held, rfl⟩ := List.mem_map.mp made
  rcases List.mem_append.mp member with picked | added
  · exact .kept (shaped.pick_subset_cells held Table.others_lt cell picked)
  · rcases List.mem_pair.mp added with rfl | rfl
    · exact .named gathers chosen (inside c chosen) rfl
    · exact .kept (shaped.at_mem_cells held (inside c chosen))

theorem gather_name_origin {melted : List Nat} (made : t.gather melted = .ok out)
    (gathers : step.operator.gathers = true) {name : String} (member : name ∈ out.columns) :
    step.NameOrigin t name := by
  obtain ⟨first, -, -, rfl⟩ := Table.gather_eq_ok.mp made
  rcases List.mem_append.mp member with stays | added
  · exact .kept (Table.names_subset Table.others_lt name stays)
  · obtain ⟨hint, known, named⟩ := Text.Names.claim_all_named_after added
    refine .fixed (.inl gathers) ?_ named
    rcases List.mem_pair.mp known with rfl | rfl <;> decide

/-- A spread table holds cells of the table it is made from and no others. -/
theorem spread_cells_subset (shaped : t.Shaped) {key value : Nat} (inside : value < t.width)
    (made : t.spread key value = .ok out) : ∀ cell ∈ out.cells, cell ∈ t.cells := by
  obtain ⟨-, -, -, rows, grid, rfl⟩ := Table.spread_eq_ok.mp made
  intro cell member
  obtain ⟨row, held, member⟩ := Table.mem_cells.mp member
  obtain ⟨g, first, cells, read, rfl⟩ := forall₂_exists_left grid held
  have placedRow {p : Table.Placed}
      (member : p ∈ t.rows.map (Table.place (t.others [key, value]) key)) : p.row ∈ t.rows := by
    obtain ⟨row, held, rfl⟩ := List.mem_map.mp member
    exact held
  rcases List.mem_append.mp member with picked | added
  · exact shaped.pick_subset_cells (placedRow (mem_firsts_by first)) Table.others_lt cell picked
  · obtain ⟨k, -, p, found, rfl⟩ := forall₂_exists_left read added
    exact shaped.at_mem_cells (placedRow (List.mem_of_find?_eq_some found)) inside

theorem append_cell_origin {name : String} {kind : Kind} {cells : List Cell}
    (creates : step.operator.createsValues = true) (noText : ∀ cell ∈ cells, cell.kind ≠ .text)
    {cell : Cell} (member : cell ∈ (t.append name kind cells).cells) :
    step.CellOrigin t cell := by
  obtain ⟨row, made, member⟩ := Table.mem_cells.mp member
  obtain ⟨old, held, added, given, rfl⟩ := Table.mem_zip_with made
  rcases List.mem_append.mp member with kept | new
  · exact .kept (Table.mem_cells.mpr ⟨old, held, kept⟩)
  · obtain rfl := List.mem_singleton.mp new
    exact .computed creates (noText _ given)

/-- **Each cell of a step's value is kept, named, computed, united or separated.** -/
theorem cell_origin (shaped : t.Shaped) (ran : step.apply t = .ok out) {cell : Cell}
    (member : cell ∈ out.cells) : step.CellOrigin t cell := by
  cases applied_of_ok ran with
  | select _ taken made =>
    obtain ⟨-, rfl⟩ := Table.select_eq_ok.mp made
    obtain ⟨row, projected, member⟩ := Table.mem_cells.mp member
    obtain ⟨old, held, rfl⟩ := List.mem_map.mp projected
    exact .kept (shaped.pick_subset_cells held (take_columns_eq_ok.mp taken).2.1 cell member)
  | unite op takenLeft takenRight takenText made =>
    obtain ⟨readLeft, -⟩ := take_column_eq_ok.mp takenLeft
    obtain ⟨readRight, -⟩ := take_column_eq_ok.mp takenRight
    obtain ⟨-, rfl⟩ := Table.unite_eq_ok.mp made
    obtain ⟨row, made, member⟩ := Table.mem_cells.mp member
    obtain ⟨old, held, added, given, rfl⟩ := Table.mem_zip_with made
    rcases mem_splice member with new | ⟨c, inside, -, -, rfl⟩
    · obtain ⟨joined, inRows, rfl⟩ := List.mem_map.mp given
      obtain rfl := List.mem_singleton.mp new
      refine .united op ?_
      simp only [united, op, readLeft, readRight, take_text_eq_ok.mp takenText]
      exact List.mem_map_of_mem inRows
    · exact .kept (shaped.at_mem_cells held inside)
  | filter _ _ _ _ made =>
    obtain ⟨-, rfl⟩ := Table.filter_eq_ok.mp made
    obtain ⟨row, held, member⟩ := Table.mem_cells.mp member
    exact .kept (Table.mem_cells.mpr ⟨row, (List.mem_filter.mp held).1, member⟩)
  | separate op _ _ => exact .separated op
  | spread _ _ takenValue made =>
    exact .kept (spread_cells_subset shaped (take_column_eq_ok.mp takenValue).2 made cell member)
  | gather op taken made =>
    obtain ⟨read, inside, -⟩ := take_columns_eq_ok.mp taken
    exact gather_cell_origin shaped (by simpa [melted, op, read] using inside)
      (by simpa [melted, op, read] using made) (by rw [op]; rfl) member
  | gatherNeg op taken made =>
    obtain ⟨read, -, -⟩ := take_columns_eq_ok.mp taken
    exact gather_cell_origin shaped (by simpa [melted, op, read] using Table.others_lt)
      (by simpa [melted, op, read] using made) (by rw [op]; rfl) member
  | groupSum op taken _ _ made =>
    obtain ⟨-, -, rfl⟩ := Table.group_sum_eq_ok.mp made
    obtain ⟨row, group, member⟩ := Table.mem_cells.mp member
    obtain ⟨first, held, rfl⟩ := List.mem_map.mp group
    rcases List.mem_append.mp member with picked | added
    · exact .kept (shaped.pick_subset_cells (mem_firsts_by held)
        (take_columns_eq_ok.mp taken).2.1 cell picked)
    · obtain rfl := List.mem_singleton.mp added
      exact .computed (by rw [op]; rfl) (by simp)
  | cumsum op _ made =>
    obtain ⟨-, rfl⟩ := Table.cumsum_eq_ok.mp made
    exact append_cell_origin (by rw [op]; rfl) (by simp) member
  | mutate op _ _ _ made =>
    obtain ⟨-, rfl⟩ := Table.mutate_eq_ok.mp made
    exact append_cell_origin (by rw [op]; rfl) (by simp) member
  | mutateCustom op _ _ _ made =>
    obtain ⟨-, rfl⟩ := Table.mutate_custom_eq_ok.mp made
    exact append_cell_origin (by rw [op]; rfl) (by simp) member

/-- **Each column name of a step's value is kept, fixed or derived.** -/
theorem name_origin (ran : step.apply t = .ok out) {name : String}
    (member : name ∈ out.columns) : step.NameOrigin t name := by
  cases applied_of_ok ran with
  | select _ taken made =>
    obtain ⟨-, rfl⟩ := Table.select_eq_ok.mp made
    exact .kept (Table.names_subset (take_columns_eq_ok.mp taken).2.1 name member)
  | filter _ _ _ _ made =>
    obtain ⟨-, rfl⟩ := Table.filter_eq_ok.mp made
    exact .kept member
  | unite op _ _ _ _ => exact .derived (by rw [op]; rfl)
  | separate op _ _ => exact .derived (by rw [op]; rfl)
  | spread op _ _ _ => exact .derived (by rw [op]; rfl)
  | groupSum op _ _ _ _ => exact .derived (by rw [op]; rfl)
  | mutate op _ _ _ _ => exact .derived (by rw [op]; rfl)
  | mutateCustom op _ _ _ _ => exact .derived (by rw [op]; rfl)
  | gather op _ made => exact gather_name_origin made (by rw [op]; rfl) member
  | gatherNeg op _ made => exact gather_name_origin made (by rw [op]; rfl) member
  | cumsum op _ made =>
    obtain ⟨-, rfl⟩ := Table.cumsum_eq_ok.mp made
    rcases List.mem_append.mp member with kept | new
    · exact .kept kept
    · obtain rfl := List.mem_singleton.mp new
      exact .fixed (.inr op) (by decide) (Text.Names.claim_named_after _ _)

/-- No step makes rows out of none. -/
theorem rows_of_apply (ran : step.apply t = .ok out) (rows : out.rows ≠ []) : t.rows ≠ [] := by
  intro none
  apply rows
  cases applied_of_ok ran with
  | select _ _ made =>
    obtain ⟨-, rfl⟩ := Table.select_eq_ok.mp made
    simp [Table.project, none]
  | unite _ _ _ _ made =>
    obtain ⟨-, rfl⟩ := Table.unite_eq_ok.mp made
    simp [Table.splice, none]
  | filter _ _ _ _ made =>
    obtain ⟨-, rfl⟩ := Table.filter_eq_ok.mp made
    simp [none]
  | separate _ _ made =>
    obtain ⟨-, parts, -, rfl⟩ := Table.separate_eq_ok.mp made
    simp [Table.split_column_eq, Table.splice, none]
  | spread _ _ _ made =>
    obtain ⟨-, -, given, -⟩ := Table.spread_eq_ok.mp made
    exact absurd (by simp [none]) given
  | gather _ _ made | gatherNeg _ _ made =>
    obtain ⟨first, -, -, rfl⟩ := Table.gather_eq_ok.mp made
    simp [none]
  | groupSum _ _ _ _ made =>
    obtain ⟨-, -, rfl⟩ := Table.group_sum_eq_ok.mp made
    simp [none, firstsBy]
  | cumsum _ _ made =>
    obtain ⟨-, rfl⟩ := Table.cumsum_eq_ok.mp made
    simp [Table.append, none]
  | mutate _ _ _ _ made =>
    obtain ⟨-, rfl⟩ := Table.mutate_eq_ok.mp made
    simp [Table.append, none]
  | mutateCustom _ _ _ _ made =>
    obtain ⟨-, rfl⟩ := Table.mutate_custom_eq_ok.mp made
    simp [Table.append, none]

end Step
end Reshape
