import Reshape.Proofs.CheckedEvaluation
import Reshape.Proofs.WellFormedness

/-! No index is out of range. On a table of the right shape, and with columns in
range for arguments, every operator with checked indices comes to what the
operator itself comes to. A step takes its columns in range or not at all, so
the same holds of steps, and of whole programs on inputs of the right shape.
Together with what keeps tables well-formed this says that no table is ever
read where it has no cell. -/
namespace Reshape

namespace Checked

variable {ε α β : Type}

@[simp] theorem of_ok (a : α) : (of (.ok a) : Checked ε α) = .ok a := rfl

@[simp] theorem of_error (e : ε) : (of (.error e) : Checked ε α) = .error (.raised e) := rfl

theorem of_ne_out_of_range (result : Except ε α) : of result ≠ .error .outOfRange := by
  cases result <;> simp

/-- A computation stays in range when its start does, and what follows does after
every value. -/
theorem bind_of {x : Checked ε α} {y : Except ε α} {f : α → Checked ε β} {g : α → Except ε β}
    (start : x = of y) (next : ∀ a, y = .ok a → f a = of (g a)) : (x >>= f) = of (y >>= g) := by
  subst start
  cases y with
  | error e => rfl
  | ok a => exact next a rfl

theorem map_m_of {f : α → Checked ε β} {g : α → Except ε β} {l : List α}
    (each : ∀ a ∈ l, f a = of (g a)) : l.mapM f = of (l.mapM g) := by
  induction l with
  | nil => rfl
  | cons a rest ih =>
    obtain ⟨here, later⟩ := List.forall_mem_cons.mp each
    rw [List.mapM_cons, List.mapM_cons]
    exact bind_of here fun _ _ => bind_of (ih later) fun _ _ => rfl

end Checked

section Reading

variable {ε α : Type}

theorem entry_at_eq {entries : List α} {c : Nat} (inside : c < entries.length) (default : α) :
    (entryAt entries c : Checked ε α) = .ok (entries.getD c default) := by
  rw [entryAt, List.getElem?_eq_getElem inside, List.getD_eq_getElem _ _ inside]

theorem splice_checked_eq {width place : Nat} {gone : List Nat} {new entries : List α}
    {old : Nat → α} (read : ∀ c < width, (entryAt entries c : Checked ε α) = .ok (old c)) :
    (spliceChecked width place gone new entries : Checked ε (List α)) =
      .ok (splice width place gone new old) := by
  have each : ∀ c ∈ List.range width,
      ((if c = place then pure new else if c ∈ gone then pure []
        else return [← entryAt entries c]) : Checked ε (List α)) =
        .ok (if c = place then new else if c ∈ gone then [] else [old c]) := by
    intro c member
    rw [read c (List.mem_range.mp member)]
    split_ifs <;> rfl
  rw [spliceChecked, map_m_ok each, ok_bind, splice, List.flatMap_def]
  rfl

end Reading

namespace Table

variable {t : Table} {ε : Type}

section Reading

variable (shaped : t.Shaped)
include shaped

theorem entry_kind {c : Nat} (inside : c < t.width) :
    (entryAt t.kinds c : Checked ε Kind) = .ok (t.kind c) :=
  entry_at_eq (shaped.typed ▸ inside) _

omit shaped in
theorem entry_name {c : Nat} (inside : c < t.width) :
    (entryAt t.columns c : Checked ε String) = .ok (t.name c) :=
  entry_at_eq inside _

theorem entry_cell {row : Row} (held : row ∈ t.rows) {c : Nat} (inside : c < t.width) :
    (entryAt row c : Checked ε Cell) = .ok (row.at c) :=
  entry_at_eq ((shaped.row_length held).symm ▸ inside) _

theorem entries_kinds {columns : List Nat} (inside : ∀ c ∈ columns, c < t.width) :
    (entriesAt t.kinds columns : Checked ε (List Kind)) = .ok (columns.map t.kind) :=
  map_m_ok fun c member => entry_kind shaped (inside c member)

omit shaped in
theorem entries_names {columns : List Nat} (inside : ∀ c ∈ columns, c < t.width) :
    (entriesAt t.columns columns : Checked ε (List String)) = .ok (columns.map t.name) :=
  map_m_ok fun c member => entry_name (inside c member)

theorem entries_cells {row : Row} (held : row ∈ t.rows) {columns : List Nat}
    (inside : ∀ c ∈ columns, c < t.width) :
    (entriesAt row columns : Checked ε Row) = .ok (row.pick columns) :=
  map_m_ok fun c member => entry_cell shaped held (inside c member)

theorem column_checked_eq {c : Nat} (inside : c < t.width) :
    (t.columnChecked c : Checked ε (List Cell)) = .ok (t.column c) :=
  map_m_ok fun _ held => entry_cell shaped held inside

theorem project_checked_eq {columns : List Nat} (inside : ∀ c ∈ columns, c < t.width) :
    (t.projectChecked columns : Checked ε Table) = .ok (t.project columns) := by
  rw [projectChecked, entries_names inside, ok_bind, entries_kinds shaped inside, ok_bind,
    map_m_ok fun row held => entries_cells shaped held inside]
  rfl

/-- Replacing columns stays in range when there are new cells for every row. -/
theorem splice_checked_eq (place : Nat) (gone : List Nat) (new : List (String × Kind))
    {cells : List Row} (enough : cells.length = t.height) :
    (t.spliceChecked place gone new cells : Checked ε Table) =
      .ok (t.splice place gone new cells) := by
  have rows : (t.rows.zipIdx.mapM fun numbered => do
      Reshape.spliceChecked t.width place gone (← entryAt cells numbered.2) numbered.1 :
        Checked ε (List Row)) =
      .ok (t.rows.zipIdx.map fun numbered =>
        Reshape.splice t.width place gone (cells.getD numbered.2 []) numbered.1.at) := by
    refine map_m_ok fun numbered member => ?_
    have found := List.mem_zipIdx_iff_getElem?.mp member
    have inside : numbered.2 < cells.length := enough ▸ (List.getElem?_eq_some_iff.mp found).1
    rw [entry_at_eq inside [], ok_bind]
    exact Reshape.splice_checked_eq fun c bound =>
      entry_cell shaped (List.mem_of_getElem? found) bound
  have zipped : (t.rows.zipIdx.map fun numbered =>
      Reshape.splice t.width place gone (cells.getD numbered.2 []) numbered.1.at) =
      List.zipWith (fun row added => Reshape.splice t.width place gone added row.at)
        t.rows cells := by
    refine List.ext_getElem (by simp [enough, height]) fun i _ bound => ?_
    have inside : i < cells.length := by
      rw [List.length_zipWith] at bound
      omega
    simp [inside]
  rw [spliceChecked, Reshape.splice_checked_eq fun c inside => entry_name inside, ok_bind,
    Reshape.splice_checked_eq fun c inside => entry_kind shaped inside, ok_bind, rows, ok_bind,
    zipped]
  rfl

end Reading

section Operators

variable (shaped : t.Shaped)
include shaped

theorem require_numeric_checked_eq {c : Nat} (inside : c < t.width) :
    t.requireNumericChecked c = .of (t.requireNumeric c) := by
  rw [requireNumericChecked, entry_kind shaped inside, ok_bind, entry_name inside, requireNumeric]
  split <;> rfl

theorem require_comparable_checked_eq {c : Nat} (inside : c < t.width) (op : Comparison)
    (constant : Cell) :
    t.requireComparableChecked c op constant = .of (t.requireComparable c op constant) := by
  rw [requireComparableChecked, entry_kind shaped inside, ok_bind, requireComparable]
  split <;> rfl

theorem select_checked_eq {columns : List Nat} (inside : ∀ c ∈ columns, c < t.width) :
    t.selectChecked columns = .of (t.select columns) := by
  rw [selectChecked, project_checked_eq shaped inside, select]
  split <;> rfl

theorem unite_checked_eq {left right : Nat} (insideLeft : left < t.width)
    (insideRight : right < t.width) (separator : String) :
    t.uniteChecked left right separator = .of (t.unite left right separator) := by
  have cells : (t.rows.mapM fun row => do
      return [joinCells separator (← entryAt row left) (← entryAt row right)] :
        Checked Refusal (List Row)) =
      .ok (t.rows.map fun row => [joinCells separator (row.at left) (row.at right)]) :=
    map_m_ok fun row held => by
      rw [entry_cell shaped held insideLeft, ok_bind, entry_cell shaped held insideRight]
      rfl
  rw [uniteChecked, unite]
  split
  · rfl
  · rw [entry_name insideLeft, ok_bind, entry_name insideRight, ok_bind, cells, ok_bind,
      splice_checked_eq shaped _ _ _ (by simp [height])]
    rfl

theorem filter_checked_eq {c : Nat} (inside : c < t.width) (op : Comparison) (constant : Cell) :
    t.filterChecked c op constant = .of (t.filter c op constant) := by
  rw [filterChecked, filter]
  refine Checked.bind_of (require_comparable_checked_eq shaped inside op constant) fun _ _ => ?_
  rw [column_checked_eq shaped inside, ok_bind, column, zip_map_self, List.filter_map]
  simp only [List.map_map, Function.comp_def, List.map_id']
  rfl

theorem split_column_checked_eq {c : Nat} (inside : c < t.width)
    {parts : List (List Char × List Char)} (size : parts.length = t.height) :
    t.splitColumnChecked c parts = .ok (t.splitColumn c parts) := by
  have cells : (List.zipWith (fun left right => [left, right])
      (Cell.ofFragments (parts.map (·.1))).2 (Cell.ofFragments (parts.map (·.2))).2).length =
        t.height := by
    simp [Cell.of_fragments_length, size]
  rw [splitColumnChecked, entry_name inside, ok_bind]
  exact splice_checked_eq shaped c [] _ cells

theorem separate_checked_eq {c : Nat} (inside : c < t.width) :
    t.separateChecked c = .of (t.separate c) := by
  rw [separateChecked, entry_kind shaped inside, ok_bind, separate]
  split
  · rfl
  · rw [column_checked_eq shaped inside, ok_bind]
    refine Checked.bind_of rfl fun parts cut => ?_
    refine split_column_checked_eq shaped inside ?_
    rw [← (map_m_eq_ok.mp cut).length_eq, column, List.length_map, height]

theorem cumsum_checked_eq {c : Nat} (inside : c < t.width) :
    t.cumsumChecked c = .of (t.cumsum c) := by
  rw [cumsumChecked, cumsum]
  refine Checked.bind_of (require_numeric_checked_eq shaped inside) fun _ _ => ?_
  rw [column_checked_eq shaped inside]
  rfl

theorem mutate_checked_eq {left right : Nat} (insideLeft : left < t.width)
    (insideRight : right < t.width) (op : Arithmetic) :
    t.mutateChecked left op right = .of (t.mutate left op right) := by
  have cells : (t.rows.mapM fun row => do
      return .number (op.apply (cellNumber (← entryAt row left))
        (cellNumber (← entryAt row right))) : Checked Refusal (List Cell)) =
      .ok (t.rows.map fun row =>
        .number (op.apply (cellNumber (row.at left)) (cellNumber (row.at right)))) :=
    map_m_ok fun row held => by
      rw [entry_cell shaped held insideLeft, ok_bind, entry_cell shaped held insideRight]
      rfl
  rw [mutateChecked, mutate]
  split
  · rfl
  · refine Checked.bind_of (require_numeric_checked_eq shaped insideLeft) fun _ _ => ?_
    refine Checked.bind_of (require_numeric_checked_eq shaped insideRight) fun _ _ => ?_
    rw [cells, ok_bind, entry_name insideLeft, ok_bind, entry_name insideRight]
    rfl

theorem mutate_custom_checked_eq {c : Nat} (inside : c < t.width) (op : Comparison)
    (constant : Cell) :
    t.mutateCustomChecked c op constant = .of (t.mutateCustom c op constant) := by
  rw [mutateCustomChecked, mutateCustom]
  refine Checked.bind_of (require_comparable_checked_eq shaped inside op constant) fun _ _ => ?_
  rw [column_checked_eq shaped inside, ok_bind, entry_name inside]
  rfl

theorem gather_checked_eq {melted : List Nat} (inside : ∀ c ∈ melted, c < t.width) :
    t.gatherChecked melted = .of (t.gather melted) := by
  have blocks : (melted.mapM fun c => do
      let name ← entryAt t.columns c
      t.rows.mapM fun row => do
        return (← entriesAt row (t.others melted)) ++ [.text name, ← entryAt row c] :
        Checked Refusal (List (List Row))) =
      .ok (melted.map fun c => t.rows.map fun row =>
        row.pick (t.others melted) ++ [.text (t.name c), row.at c]) :=
    map_m_ok fun c chosen => by
      rw [entry_name (inside c chosen), ok_bind]
      refine map_m_ok fun row held => ?_
      rw [entries_cells shaped held others_lt, ok_bind, entry_cell shaped held (inside c chosen)]
      rfl
  cases melted with
  | nil => rfl
  | cons first rest =>
    rw [gatherChecked, gather, entry_kind shaped (inside first List.mem_cons_self), ok_bind,
      entries_kinds shaped inside, ok_bind, List.any_map]
    dsimp only [Function.comp_def]
    split
    · rfl
    · rw [blocks, ok_bind, entries_names others_lt, ok_bind, entries_kinds shaped others_lt]
      rfl

/-- Placing a row reads it in range. -/
theorem place_checked_eq {key value : Nat} (insideKey : key < t.width)
    (insideValue : value < t.width) {row : Row} (held : row ∈ t.rows) :
    placeChecked (t.others [key, value]) key value row =
      .ok (place (t.others [key, value]) key row) := by
  rw [placeChecked, entry_cell shaped held insideKey, ok_bind,
    entries_cells shaped held others_lt, ok_bind, entry_cell shaped held insideValue]
  rfl

/-- The rows of a spread table read their cells in range. -/
theorem spread_rows_checked_eq {index : List Nat} (inside : ∀ c ∈ index, c < t.width)
    {value : Nat} (insideValue : value < t.width) {placed : List Placed}
    (held : ∀ p ∈ placed, p.row ∈ t.rows) :
    ((firstsBy Placed.group placed).mapM fun g => do
      let cells ← (firstsBy Placed.key placed).mapM fun k =>
        match placed.find? fun p => p.group = g.group ∧ p.key = k.key with
        | some p => entryAt p.row value
        | none => throw (.raised .missingCells)
      return (← entriesAt g.row index) ++ cells : Checked Refusal (List Row)) =
      .of ((firstsBy Placed.group placed).mapM fun g => do
        let cells ← (firstsBy Placed.key placed).mapM fun k =>
          match placed.find? fun p => p.group = g.group ∧ p.key = k.key with
          | some p => .ok (p.row.at value)
          | none => .error .missingCells
        return g.row.pick index ++ cells) := by
  refine Checked.map_m_of fun g first => ?_
  refine Checked.bind_of (Checked.map_m_of fun k _ => ?_) fun cells _ => ?_
  · cases found : placed.find? fun p => p.group = g.group ∧ p.key = k.key with
    | none => rfl
    | some p => exact entry_cell shaped (held p (List.mem_of_find?_eq_some found)) insideValue
  · rw [entries_cells shaped (held g (mem_firsts_by first)) inside]
    rfl

theorem spread_checked_eq {key value : Nat} (insideKey : key < t.width)
    (insideValue : value < t.width) : t.spreadChecked key value = .of (t.spread key value) := by
  rw [spreadChecked, spread]
  split
  · rfl
  dsimp only
  rw [map_m_ok fun row held => place_checked_eq shaped insideKey insideValue held,
    ok_bind]
  generalize made : t.rows.map (place (t.others [key, value]) key) = placed
  have held : ∀ p ∈ placed, p.row ∈ t.rows := by
    subst made
    exact List.forall_mem_map.mpr fun _ held => held
  have named : ∀ p ∈ placed, (entryAt p.row key : Checked Refusal Cell) = .ok (p.row.at key) :=
    fun p member => entry_cell shaped (held p member) insideKey
  cases repeated : firstRepeat (fun p : Placed => (p.group, p.key)) [] placed with
  | some p =>
    dsimp only
    rw [named p (first_repeat_mem repeated)]
    rfl
  | none =>
    dsimp only
    split
    · rfl
    have hints : ((firstsBy Placed.key placed).mapM fun k => do
        return (← entryAt k.row key).display : Checked Refusal (List String)) =
        .ok ((firstsBy Placed.key placed).map fun k => (k.row.at key).display) :=
      map_m_ok fun k first => by
        rw [named k (mem_firsts_by first)]
        rfl
    rw [entries_names others_lt, ok_bind, entries_kinds shaped others_lt, ok_bind,
      entry_kind shaped insideValue, ok_bind, hints, ok_bind]
    exact Checked.bind_of (spread_rows_checked_eq shaped others_lt insideValue held)
      fun rows _ => rfl

/-- What a row adds to its group is read in range. -/
theorem summands_checked_eq {groups : List Nat} (inside : ∀ c ∈ groups, c < t.width)
    {target : Option Nat} (insideTarget : ∀ c ∈ target, c < t.width) :
    t.rows.mapM (summandChecked groups target) =
      .ok (t.rows.map fun row => (row.pick groups, match target with
        | none => 1
        | some c => ((row.at c).number?).getD 1)) := by
  refine map_m_ok fun row held => ?_
  rw [summandChecked, entries_cells shaped held inside, ok_bind]
  cases target with
  | none => rfl
  | some c =>
    dsimp only
    rw [entry_cell shaped held (insideTarget c rfl)]
    rfl

theorem group_sum_checked_eq {groups : List Nat} (inside : ∀ c ∈ groups, c < t.width)
    {target : Option Nat} (insideTarget : ∀ c ∈ target, c < t.width) (f : Aggregate) :
    t.groupSumChecked groups target f = .of (t.groupSum groups target f) := by
  rw [groupSumChecked, groupSum]
  split
  · rfl
  -- Reading the names, the kinds and the rows of the result never fails, whatever its
  -- new column is called.
  simp only [summands_checked_eq shaped inside insideTarget, entries_names inside,
    entries_kinds shaped inside, ok_bind, firsts_by_map, List.filter_map, List.map_map]
  cases target with
  | none => dsimp only; split <;> rfl
  | some c =>
    dsimp only
    split
    · rfl
    · have inside : c < t.width := insideTarget c rfl
      rw [require_numeric_checked_eq shaped inside, entry_name inside]
      cases t.requireNumeric c <;> rfl

end Operators

end Table

namespace Step

variable {step : Step} {t : Table}

theorem refusing_checked_eq {checked : Checked Refusal Table} {result : Except Refusal Table}
    (same : checked = .of result) : step.refusingChecked checked = .of (step.refusing result) := by
  subst same
  cases result <;> rfl

/-- **A step reads in range.** The columns that it takes are columns of its table. -/
theorem apply_checked_eq (shaped : t.Shaped) : step.applyChecked t = .of (step.apply t) := by
  have column {position c : Nat} (taken : step.takeColumn position t.width = .ok c) :
      c < t.width := (take_column_eq_ok.mp taken).2
  have columns {position : Nat} {cs : List Nat}
      (taken : step.takeColumns position t.width = .ok cs) : ∀ c ∈ cs, c < t.width :=
    (take_columns_eq_ok.mp taken).2.1
  have target {position : Nat} {target : Option Nat}
      (taken : step.takeTarget position t.width = .ok target) : ∀ c ∈ target, c < t.width := by
    rintro c ⟨⟩
    exact (take_target_eq_ok.mp taken).2
  rw [applyChecked, apply]
  cases step.operator with
  | select =>
    exact Checked.bind_of rfl fun _ taken =>
      refusing_checked_eq (Table.select_checked_eq shaped (columns taken))
  | unite =>
    exact Checked.bind_of rfl fun _ left => Checked.bind_of rfl fun _ right =>
      Checked.bind_of rfl fun separator _ =>
        refusing_checked_eq (Table.unite_checked_eq shaped (column left) (column right) separator)
  | filter =>
    exact Checked.bind_of rfl fun _ taken => Checked.bind_of rfl fun op _ =>
      Checked.bind_of rfl fun constant _ =>
        refusing_checked_eq (Table.filter_checked_eq shaped (column taken) op constant)
  | separate =>
    exact Checked.bind_of rfl fun _ taken =>
      refusing_checked_eq (Table.separate_checked_eq shaped (column taken))
  | spread =>
    exact Checked.bind_of rfl fun _ key => Checked.bind_of rfl fun _ value =>
      refusing_checked_eq (Table.spread_checked_eq shaped (column key) (column value))
  | gather =>
    exact Checked.bind_of rfl fun _ taken =>
      refusing_checked_eq (Table.gather_checked_eq shaped (columns taken))
  | gatherNeg =>
    exact Checked.bind_of rfl fun _ _ =>
      refusing_checked_eq (Table.gather_checked_eq shaped Table.others_lt)
  | groupSum =>
    exact Checked.bind_of rfl fun _ groups => Checked.bind_of rfl fun _ taken =>
      Checked.bind_of rfl fun f _ =>
        refusing_checked_eq (Table.group_sum_checked_eq shaped (columns groups) (target taken) f)
  | cumsum =>
    exact Checked.bind_of rfl fun _ taken =>
      refusing_checked_eq (Table.cumsum_checked_eq shaped (column taken))
  | mutate =>
    exact Checked.bind_of rfl fun _ left => Checked.bind_of rfl fun op _ =>
      Checked.bind_of rfl fun _ right =>
        refusing_checked_eq (Table.mutate_checked_eq shaped (column left) (column right) op)
  | mutateCustom =>
    exact Checked.bind_of rfl fun _ taken => Checked.bind_of rfl fun op _ =>
      Checked.bind_of rfl fun constant _ =>
        refusing_checked_eq (Table.mutate_custom_checked_eq shaped (column taken) op constant)

end Step

/-- Evaluation reads in range, because the value of every part of a program keeps its
shape. -/
theorem eval_steps_checked_eq {inputs : List Table} (shaped : ∀ t ∈ inputs, t.Shaped)
    (input : Nat) (steps : List Step) :
    evalStepsChecked inputs input steps = .of (evalSteps inputs input steps) := by
  induction steps with
  | nil =>
    rw [evalStepsChecked, evalSteps]
    cases inputs[input]? <;> rfl
  | cons step rest ih =>
    exact Checked.bind_of ih fun t ran =>
      Step.apply_checked_eq (eval_steps_shaped shaped ran)

/-- Without the shape it does not: the default stands in for a cell that the table lacks. -/
example :
    let short : Table := ⟨["k", "v"], [.text, .number], [[.text "x"]]⟩
    let spreading : Program := ⟨0, [⟨.spread, [.column 0, .column 1]⟩]⟩
    spreading.evalChecked [short] = .error .outOfRange ∧
      spreading.eval [short] = .ok ⟨["x"], [.number], [[.text ""]]⟩ := by decide +kernel

/-- **Every table is well-formed.** What comes in is, and so is the value of every program,
whose evaluation reads no table out of range. What is pushed back through an operator is
well-formed too, and asks for a row when there was one to ask for. -/
theorem tables_well_formed :
    (∀ columns rows t, Table.ofRows columns rows = .ok t → t.WellFormed) ∧
    (∀ (p : Program) (inputs : List Table), (∀ t ∈ inputs, t.WellFormed) →
      p.evalChecked inputs ≠ .error .outOfRange ∧ p.evalChecked inputs = .of (p.eval inputs) ∧
        ∀ value, p.eval inputs = .ok value → value.WellFormed) ∧
    ∀ (op : Operator) (outermost : Bool) (required : Table), required.WellFormed →
      ∀ r ∈ op.backward required outermost,
        r.WellFormed ∧ (required.rows ≠ [] → r.rows ≠ []) := by
  refine ⟨fun _ _ _ made => Table.of_rows_well_formed made, fun p inputs ok => ?_,
    fun op outermost required ok r handed => ?_⟩
  · have same : p.evalChecked inputs = .of (p.eval inputs) :=
      eval_steps_checked_eq (fun t given => (ok t given).shaped) p.input p.steps
    refine ⟨?_, same, fun value ran => eval_steps_well_formed ok ran⟩
    rw [same]
    exact Checked.of_ne_out_of_range _
  · exact ⟨Operator.backward_well_formed ok handed, fun rows => Operator.backward_rows rows handed⟩

namespace IndicesInRange

/-- A table whose cells name columns that stand in each other's way. -/
def crossed : Table where
  columns := ["id", "key", "value"]
  kinds := [.text, .text, .number]
  rows := [[.text "a-b", .text "id1", .number 5], [.text "a-b", .text "id", .number 6]]

/-- Spreads the values and separates the identifier. -/
def crossing : Program := ⟨0, [⟨.separate, [.column 0]⟩, ⟨.spread, [.column 1, .column 2]⟩]⟩

/-- The value of the program: every column has found a name of its own. -/
def uncrossed : Table where
  columns := ["id10", "id2", "id1", "id0"]
  kinds := [.text, .text, .number, .number]
  rows := [[.text "a", .text "b", .number 5, .number 6]]

/-- What spreading needs below that value, one of two requirements. -/
def molten : Table where
  columns := ["id10", "id2", "VALUE"]
  kinds := [.text, .text, .number]
  rows := [[.text "a", .text "b", .number 5], [.text "a", .text "b", .number 6]]

end IndicesInRange

open IndicesInRange in
theorem tables_well_formed_crossed :
    Table.ofRows crossed.columns crossed.rows = .ok crossed ∧ crossed.WellFormed ∧
      crossing.evalChecked [crossed] = .ok uncrossed ∧ uncrossed.WellFormed ∧
      molten ∈ Operator.spread.backward uncrossed true ∧ molten.WellFormed := by
  obtain ⟨made, computed, pushed⟩ := tables_well_formed
  have given : Table.ofRows crossed.columns crossed.rows = .ok crossed := by decide +kernel
  have ran : crossing.eval [crossed] = .ok uncrossed := by decide +kernel
  have handed : molten ∈ Operator.spread.backward uncrossed true := by decide +kernel
  have ok : crossed.WellFormed := made _ _ _ given
  obtain ⟨-, same, kept⟩ := computed crossing [crossed] (by simpa using ok)
  have okValue : uncrossed.WellFormed := kept _ ran
  refine ⟨given, ok, ?_, okValue, handed, (pushed _ _ _ okValue _ handed).1⟩
  rw [same, ran]
  rfl

end Reshape
