import Mathlib.Data.List.Nodup
import Reshape.Proofs.Naming
import Reshape.Proofs.Replacement

/-! Tables stay well-formed. Their shape is one half of that; the other half is
that no two columns share a name. What comes in from outside is checked for it,
columns that stay keep their names, and every new name is claimed from an arena
in which theirs are taken. The same holds of the requirements that are pushed
back through an operator, which moreover never lose their last row. -/
namespace Reshape

/-- No element repeats among different elements. -/
theorem first_repeat_none {α β : Type} [DecidableEq β] {f : α → β} {seen : List β} {l : List α}
    (none : firstRepeat f seen l = none) : (l.map f).Nodup ∧ ∀ a ∈ l, f a ∉ seen := by
  induction l generalizing seen with
  | nil => exact ⟨List.nodup_nil, nofun⟩
  | cons a rest ih =>
    rw [firstRepeat] at none
    split at none
    · cases none
    · rename_i new
      obtain ⟨different, apart⟩ := ih none
      simp only [List.mem_cons, not_or] at apart
      refine ⟨List.nodup_cons.mpr ⟨?_, different⟩, List.forall_mem_cons.mpr ⟨new, ?_⟩⟩
      · intro again
        obtain ⟨b, later, same⟩ := List.mem_map.mp again
        exact (apart b later).1 same
      · exact fun b later => (apart b later).2

/-- Where no value repeats, no repetition is found. -/
theorem first_repeat_of_distinct {α β : Type} [DecidableEq β] {f : α → β} {seen : List β}
    {l : List α} (different : (l.map f).Nodup) (apart : ∀ a ∈ l, f a ∉ seen) :
    firstRepeat f seen l = none := by
  induction l generalizing seen with
  | nil => rfl
  | cons a rest ih =>
    obtain ⟨new, different⟩ := List.nodup_cons.mp different
    obtain ⟨here, later⟩ := List.forall_mem_cons.mp apart
    rw [firstRepeat, if_neg here]
    refine ih different fun b member again => ?_
    rcases List.mem_cons.mp again with same | before
    · exact new (same ▸ List.mem_map_of_mem member)
    · exact later b member before

namespace Table

variable {t out required r : Table}

theorem Shaped.well_formed (shaped : t.Shaped) (distinct : t.columns.Nodup) : t.WellFormed :=
  ⟨distinct, shaped.typed, shaped.filled⟩

/-- A cell that is settled in its column has the kind that the column gets. -/
theorem settle_kind {cells : List Cell} {cell : Cell} (member : cell ∈ cells) :
    (settle (sharedKind cells) cell).kind = (sharedKind cells).getD .text := by
  cases cells with
  | nil => cases member
  | cons first rest =>
    rw [sharedKind]
    split
    · rename_i same
      rcases List.mem_cons.mp member with rfl | later
      · rfl
      · exact of_decide_eq_true (List.all_eq_true.mp same cell later)
    · rfl

/-- **What comes in is well-formed.** -/
theorem of_rows_well_formed {columns : List String} {rows : List Row}
    (made : ofRows columns rows = .ok t) : t.WellFormed := by
  rw [ofRows] at made
  split at made
  · cases made
  · rename_i noRepeat
    split at made
    · cases made
    · rename_i noMisfit
      cases made
      refine ⟨by simpa using (first_repeat_none noRepeat).1, by simp, ?_⟩
      intro row member
      obtain ⟨given, held, rfl⟩ := List.mem_map.mp member
      have fits : given.length = columns.length := by
        obtain ⟨i, inside, rfl⟩ := List.getElem_of_mem held
        have passed := List.find?_eq_none.mp noMisfit (rows[i], i)
          (List.mem_zipIdx_iff_getElem?.mpr (List.getElem?_eq_getElem inside))
        simpa using passed
      refine List.ext_getElem (by simp [fits]) fun c bound _ => ?_
      have inside : c < given.length := by simpa [fits] using bound
      have stands : given[c] ∈ rows.map (Row.at · c) :=
        List.mem_map.mpr ⟨given, held, List.getD_eq_getElem _ _ inside⟩
      simpa using settle_kind stands

/-- Columns of one name are one column. -/
theorem name_inj (distinct : t.columns.Nodup) {c d : Nat} (insideLeft : c < t.width)
    (insideRight : d < t.width) (same : t.name c = t.name d) : c = d := by
  rw [name, name, List.getD_eq_getElem _ _ insideLeft, List.getD_eq_getElem _ _ insideRight] at same
  exact distinct.getElem_inj_iff.mp same

theorem names_nodup (distinct : t.columns.Nodup) {columns : List Nat} (different : columns.Nodup)
    (inside : ∀ c ∈ columns, c < t.width) : (columns.map t.name).Nodup :=
  (List.nodup_map_iff_inj_on different).mpr fun c left d right same =>
    name_inj distinct (inside c left) (inside d right) same

/-- New names behind those of columns that stay. -/
theorem names_append_nodup (distinct : t.columns.Nodup) {columns : List Nat}
    (different : columns.Nodup) (inside : ∀ c ∈ columns, c < t.width) {added : List String}
    (apart : added.Nodup ∧ ∀ name ∈ added, name ∉ columns.map t.name) :
    (columns.map t.name ++ added).Nodup := by
  refine List.nodup_append.mpr ⟨names_nodup distinct different inside, apart.1, ?_⟩
  rintro kept member _ new rfl
  exact apart.2 kept new member

theorem new_name_not_mem (t : Table) (hint : String) : t.newName hint ∉ t.columns :=
  Text.Names.claim_not_taken _ hint

theorem append_distinct (distinct : t.columns.Nodup) (hint : String) (kind : Kind)
    (cells : List Cell) : (t.append (t.newName hint) kind cells).columns.Nodup := by
  refine List.nodup_append.mpr ⟨distinct, List.nodup_singleton _, ?_⟩
  rintro kept member _ new rfl
  exact new_name_not_mem t hint (List.mem_singleton.mp new ▸ member)

theorem splice_distinct (distinct : t.columns.Nodup) (place : Nat) (gone : List Nat)
    {new : List (String × Kind)} {cells : List Row} (different : (new.map (·.1)).Nodup)
    (apart : ∀ name ∈ new.map (·.1), name ∉ t.columns) :
    (t.splice place gone new cells).columns.Nodup :=
  splice_nodup different (fun _ inside _ _ again => apart _ again (name_mem inside))
    fun _ left _ _ _ right _ _ same => name_inj distinct left right same

/-- One column joined out of two gets a new name. -/
theorem splice_new_name_distinct (distinct : t.columns.Nodup) (place : Nat) (gone : List Nat)
    (hint : String) (kind : Kind) (cells : List Row) :
    (t.splice place gone [(t.newName hint, kind)] cells).columns.Nodup := by
  refine splice_distinct distinct place gone (List.nodup_singleton _) fun name member => ?_
  rw [List.mem_singleton.mp member]
  exact new_name_not_mem t hint

theorem split_column_distinct (distinct : t.columns.Nodup) (column : Nat)
    (parts : List (List Char × List Char)) : (t.splitColumn column parts).columns.Nodup := by
  obtain ⟨different, new⟩ := Text.Names.claim_all_distinct (.reserving t.columns)
    [t.name column ++ "1", t.name column ++ "2"]
  exact splice_distinct distinct column [] different new

/-- Columns besides some others keep different names, and claimed names can
stand behind them. -/
theorem others_append_nodup (distinct : t.columns.Nodup) (columns : List Nat) {added : List String}
    (apart : added.Nodup ∧ ∀ name ∈ added, name ∉ (t.others columns).map t.name) :
    ((t.others columns).map t.name ++ added).Nodup :=
  names_append_nodup distinct (others_nodup columns) others_lt apart

theorem gather_distinct (distinct : t.columns.Nodup) {melted : List Nat}
    (made : t.gather melted = .ok out) : out.columns.Nodup := by
  obtain ⟨first, -, -, rfl⟩ := gather_eq_ok.mp made
  obtain ⟨different, new⟩ := Text.Names.claim_all_distinct (.reserving t.columns) ["KEY", "VALUE"]
  exact others_append_nodup distinct melted
    ⟨different, fun name member kept => new name member (names_subset others_lt name kept)⟩

theorem without_distinct (distinct : t.columns.Nodup) (columns : List Nat) :
    (t.without columns).columns.Nodup :=
  names_nodup distinct (others_nodup columns) others_lt

end Table

/-- Every step keeps the names of columns different. -/
theorem Step.apply_distinct {step : Step} {t out : Table} (distinct : t.columns.Nodup)
    (ran : step.apply t = .ok out) : out.columns.Nodup := by
  cases Step.applied_of_ok ran with
  | select _ taken made =>
    obtain ⟨-, rfl⟩ := Table.select_eq_ok.mp made
    obtain ⟨-, inside, different⟩ := take_columns_eq_ok.mp taken
    exact Table.names_nodup distinct different inside
  | unite _ _ _ _ made =>
    obtain ⟨-, rfl⟩ := Table.unite_eq_ok.mp made
    exact Table.splice_new_name_distinct distinct _ _ _ _ _
  | filter _ _ _ _ made =>
    obtain ⟨-, rfl⟩ := Table.filter_eq_ok.mp made
    exact distinct
  | separate _ _ made =>
    obtain ⟨-, parts, -, rfl⟩ := Table.separate_eq_ok.mp made
    exact Table.split_column_distinct distinct _ parts
  | spread _ _ _ made =>
    obtain ⟨-, -, -, rows, -, rfl⟩ := Table.spread_eq_ok.mp made
    exact Table.others_append_nodup distinct _ (Text.Names.claim_all_distinct _ _)
  | gather _ _ made | gatherNeg _ _ made => exact Table.gather_distinct distinct made
  | groupSum _ taken _ _ made =>
    obtain ⟨-, -, rfl⟩ := Table.group_sum_eq_ok.mp made
    obtain ⟨-, inside, different⟩ := take_columns_eq_ok.mp taken
    refine Table.names_append_nodup distinct different inside ⟨List.nodup_singleton _, ?_⟩
    intro name member kept
    rw [List.mem_singleton.mp member] at kept
    exact Table.new_name_not_mem t _ (Table.names_subset inside _ kept)
  | cumsum _ _ made =>
    obtain ⟨-, rfl⟩ := Table.cumsum_eq_ok.mp made
    exact Table.append_distinct distinct _ _ _
  | mutate _ _ _ _ made =>
    obtain ⟨-, rfl⟩ := Table.mutate_eq_ok.mp made
    exact Table.append_distinct distinct _ _ _
  | mutateCustom _ _ _ _ made =>
    obtain ⟨-, rfl⟩ := Table.mutate_custom_eq_ok.mp made
    exact Table.append_distinct distinct _ _ _

/-- **Every step keeps tables well-formed.** -/
theorem Step.apply_well_formed {step : Step} {t out : Table} (ok : t.WellFormed)
    (ran : step.apply t = .ok out) : out.WellFormed :=
  (Step.apply_shaped ok.shaped ran).well_formed (Step.apply_distinct ok.distinct ran)

/-- Whatever has a value on well-formed inputs has a well-formed one. -/
theorem eval_steps_well_formed {inputs : List Table} (ok : ∀ t ∈ inputs, t.WellFormed) {input : Nat}
    {steps : List Step} {value : Table} (ran : evalSteps inputs input steps = .ok value) :
    value.WellFormed :=
  eval_steps_keep (fun _ _ _ => Step.apply_well_formed) ok ran

namespace Table

variable {required r : Table}

theorem PushedBack.distinct (pushed : required.PushedBack r) (distinct : required.columns.Nodup) :
    r.columns.Nodup := by
  cases pushed with
  | untouched => exact distinct
  | without columns => exact without_distinct distinct columns
  | cut c size => exact split_column_distinct distinct c _
  | joined left right separator => exact splice_new_name_distinct distinct _ _ _ _ _
  | molten chosen head same =>
    refine names_append_nodup distinct (List.nodup_range.sublist chosen)
      (fun c member => List.mem_range.mp (chosen.subset member)) ⟨List.nodup_singleton _, ?_⟩
    intro name member
    rw [List.mem_singleton.mp member]
    exact Text.Names.claim_not_taken _ _

/-- A requirement with rows leaves rows to require. -/
theorem PushedBack.rows (pushed : required.PushedBack r) (rows : required.rows ≠ []) :
    r.rows ≠ [] := by
  obtain ⟨row, more, given⟩ := List.exists_cons_of_ne_nil rows
  cases pushed with
  | untouched => exact rows
  | without columns => simp [Table.without, dedup, drop, project, given, firstsBy]
  | cut c size =>
    rw [← List.length_pos_iff, split_column_eq]
    simp [splice, Cell.of_fragments_length, size, height, given]
  | joined left right separator => simp [Table.joined, splice, given]
  | molten chosen head same =>
    obtain ⟨rest, others⟩ := List.head?_eq_some_iff.mp head
    simp [dedup, others, given, firstsBy]

end Table

/-- A requirement with rows leaves rows to require below every operator. -/
theorem Operator.backward_rows {op : Operator} {required r : Table} {outermost : Bool}
    (rows : required.rows ≠ []) (handed : r ∈ op.backward required outermost) : r.rows ≠ [] :=
  (Operator.backward_pushed_back handed).rows rows

/-- **What is required below is well-formed**, as what is required is. -/
theorem Operator.backward_well_formed {op : Operator} {required r : Table} {outermost : Bool}
    (ok : required.WellFormed) (handed : r ∈ op.backward required outermost) : r.WellFormed :=
  (Operator.backward_shaped ok.shaped handed).well_formed
    ((Operator.backward_pushed_back handed).distinct ok.distinct)

end Reshape
