import Reshape.Proofs.DomainSoundness
import Reshape.Proofs.Equivalence
import Reshape.Proofs.Separators

/-! Domains leave out nothing that makes a difference. They list columns in
increasing order only, count rows and not the cells of a column, and know the
constants of the configuration alone. What a step makes of other arguments, an
offered step makes as well, up to names and the order of columns and rows. -/
namespace Reshape

open scoped List

namespace Number

/-- Comparison does not see the sign of zero. -/
theorem compare_canonical (x y : Float) :
    (canonical x < y ↔ x < y) ∧ (y < canonical x ↔ y < x) := by
  unfold canonical
  split
  · rename_i zero
    rcases zero_of_exact zero with rfl | rfl
    · exact ⟨.rfl, .rfl⟩
    · have unsigned : (0 : Float).toModel.unpack = .zero .positive := rfl
      have signed : (-0.0 : Float).toModel.unpack = .zero .negative := rfl
      show (decide ((0 : Float).toModel.unpack.lt y.toModel.unpack = true) = true ↔
          decide ((-0.0 : Float).toModel.unpack.lt y.toModel.unpack = true) = true) ∧
        (decide (y.toModel.unpack.lt (0 : Float).toModel.unpack = true) = true ↔
          decide (y.toModel.unpack.lt (-0.0 : Float).toModel.unpack = true) = true)
      rw [unsigned, signed]
      cases y.toModel.unpack with
      | infinity sign | finite sign => cases sign <;> exact ⟨.rfl, .rfl⟩
      | zero | notANumber => exact ⟨.rfl, .rfl⟩
  · exact ⟨.rfl, .rfl⟩

end Number

theorem Cell.kind_canonical (cell : Cell) : cell.canonical.kind = cell.kind := by
  cases cell <;> rfl

theorem Comparison.holds_canonical (op : Comparison) (cell constant : Cell) :
    op.holds? cell constant.canonical = op.holds? cell constant := by
  cases op with
  | equal => simp [holds?, Cell.kind_canonical]
  | greater | less =>
    cases cell <;> cases constant <;>
      simp [holds?, Cell.number?, Cell.canonical, Number.compare_canonical]

/-- Cells compare with constants of equal value alike. -/
theorem Comparison.holds_congr {constant other : Cell}
    (same : constant.canonical = other.canonical) (op : Comparison) (cell : Cell) :
    op.holds? cell constant = op.holds? cell other := by
  rw [← holds_canonical op cell constant, same, holds_canonical]

/-- An argument that the configuration knows: comparisons, aggregates and, up to
the sign of zero, constants are listed in it, and lists of columns are neither
empty nor beyond the limit of their operator. -/
def Argument.Known (config : Config) (op : Operator) : Argument → Prop
  | .comparison cmp => cmp ∈ config.comparisons
  | .aggregate f => f ∈ config.aggregates
  | .constant cell => ∃ known ∈ config.constants, known.canonical = cell.canonical
  | .columns listed => listed ≠ [] ∧ (op = .gather → listed.length ≤ config.gatherLimit) ∧
      (op = .gatherNeg → listed.length ≤ config.keepLimit)
  | _ => True

/-- Some arguments drawn from the domains above a table make an equivalent of
`out` there. -/
def Attained (config : Config) (t : Table) (op : Operator) (out : Table) : Prop :=
  ∃ arguments, Drawing config t op arguments ∧ arguments.length = op.arity ∧
    ∃ made, Step.apply ⟨op, arguments⟩ t = .ok made ∧ out.equivalentTo made = true

namespace Table

variable {config : Config} {t out : Table} {columns : List Nat}

/-- The same columns in increasing order. -/
def ordered (t : Table) (columns : List Nat) : List Nat := t.positions.filter (· ∈ columns)

theorem Lists.ordered_perm (listed : t.Lists columns) : t.ordered columns ~ columns :=
  filter_mem_perm listed.different listed.inRange

theorem Lists.ordered_lists (listed : t.Lists columns) : t.Lists (t.ordered columns) where
  some := by
    intro none
    have same := listed.ordered_perm
    rw [none] at same
    exact listed.some same.nil_eq.symm
  different := listed.ordered_perm.nodup_iff.mpr listed.different
  inRange := fun c member => listed.inRange c (listed.ordered_perm.subset member)

theorem Lists.ordered_offered (listed : t.Lists columns) {limit : Nat}
    (bounded : columns.length ≤ limit) : t.ordered columns ∈ columnChoices limit t.width :=
  mem_column_choices.mpr ⟨List.filter_sublist, listed.ordered_lists.some,
    listed.ordered_perm.length_eq ▸ bounded⟩

theorem Lists.length_le (listed : t.Lists columns) : columns.length ≤ t.width := by
  have inside : columns <+~ t.positions := List.subperm_of_subset listed.different
    fun c member => List.mem_range.mpr (listed.inRange c member)
  simpa [positions] using inside.length_le

theorem others_congr {columns' : List Nat} (same : columns ~ columns') :
    t.others columns = t.others columns' :=
  List.filter_congr fun c _ => by simp only [same.mem_iff]

theorem shares_kind_congr {columns' : List Nat} (same : columns ~ columns') :
    t.sharesKind columns = true → t.sharesKind columns' = true := by
  intro shared
  obtain ⟨first, head, each⟩ := shares_kind_iff.mp shared
  cases columns' with
  | nil =>
    rw [same.eq_nil] at head
    cases head
  | cons first' rest =>
    have one := each first' (same.symm.subset List.mem_cons_self)
    exact shares_kind_iff.mpr ⟨first', rfl, fun c member => by
      rw [each c (same.symm.subset member), one]⟩

/-- What is gathered shares its kind. -/
theorem shares_kind_of_gather (made : t.gather columns = .ok out) :
    t.sharesKind columns = true := by
  obtain ⟨first, head, same, -⟩ := gather_eq_ok.mp made
  exact shares_kind_iff.mpr ⟨first, head, same⟩

/-- What is separated can be separated: every cell of the column has a
separator. -/
theorem separable_of_separate (shaped : t.Shaped) {c : Nat} (made : t.separate c = .ok out) :
    t.kind c = .text ∧ t.isSeparable c = true := by
  obtain ⟨text, parts, cut, -⟩ := separate_eq_ok.mp made
  refine ⟨text, List.all_eq_true.mpr fun cell member => ?_⟩
  obtain ⟨part, -, found⟩ := forall₂_exists_right cut member
  obtain ⟨row, held, rfl⟩ := List.mem_map.mp member
  have kind := shaped.kind_at held c
  rw [text] at kind
  cases cell : row.at c with
  | text s =>
    rw [cell] at found
    exact Text.any_of_split_first found
  | number x | boolean b => simp [cell] at kind

/-- Grouping does not depend on the order of the group columns. -/
theorem rows_like_congr {columns' : List Nat} (same : columns ~ columns') (row : Row) :
    t.rowsLike columns row = t.rowsLike columns' row := by
  refine List.filter_congr fun other _ => ?_
  simp only [key_pick_eq_iff, same.mem_iff]

theorem groups_congr {columns' : List Nat} (same : columns ~ columns') :
    firstsBy (fun row => (row.pick columns).key) t.rows =
      firstsBy (fun row => (row.pick columns').key) t.rows :=
  firsts_by_congr (fun row other => by simp only [key_pick_eq_iff, same.mem_iff]) t.rows

/-- A count does not depend on what is counted. -/
theorem count_map {α : Type} (l : List α) (value value' : α → Float) :
    Aggregate.count.apply (l.map value) = Aggregate.count.apply (l.map value') := by
  simp [Aggregate.apply]

theorem equivalent_self (shaped : t.Shaped) : t.equivalentTo t = true :=
  equivalent_of_keys shaped rfl (.refl _)

end Table

namespace Attained

variable {config : Config} {t out : Table} {columns : List Nat} {c : Nat}

/-- Arguments that are drawn and make the table itself cover it. -/
theorem same (shaped : t.Shaped) {op : Operator} {arguments : List Argument}
    (drawn : Drawing config t op arguments) (total : arguments.length = op.arity)
    (made : Step.apply ⟨op, arguments⟩ t = .ok out) : Attained config t op out :=
  ⟨arguments, drawn, total, out, made, Table.equivalent_self (Step.apply_shaped shaped made)⟩

theorem select (listed : t.Lists columns) : Attained config t .select (t.project columns) := by
  have taken : Argument.columns (t.ordered columns) ∈
      (columnChoices t.width t.width).map Argument.columns :=
    List.mem_map_of_mem (listed.ordered_offered listed.length_le)
  refine ⟨_, .next .nothing Nat.one_pos rfl taken, rfl, t.project (t.ordered columns), ?_, ?_⟩
  · exact Step.ok_of_applied (.select rfl (Step.take_listed rfl listed.ordered_lists)
      (Table.select_eq_ok.mpr ⟨listed.ordered_lists.some, rfl⟩))
  · refine Table.equivalent_of_rearranged (l := t.rows) (n := 0) (fun _ => [])
      listed.ordered_perm.symm listed.different (fun _ _ => rfl) ?_ ?_ ?_ ?_ <;>
    simp [Table.project, Table.width]

theorem gather (listed : t.Lists columns) (bounded : columns.length ≤ config.gatherLimit)
    (shaped : t.Shaped) (made : t.gather columns = .ok out) : Attained config t .gather out := by
  have sorted := listed.ordered_perm
  have within : columns.length ≤ min config.gatherLimit t.width :=
    Nat.le_min.mpr ⟨bounded, listed.length_le⟩
  have shared := Table.shares_kind_congr sorted.symm (Table.shares_kind_of_gather made)
  have taken : Argument.columns (t.ordered columns) ∈
      ((columnChoices (min config.gatherLimit t.width) t.width).filter t.sharesKind).map
        Argument.columns :=
    List.mem_map_of_mem (List.mem_filter.mpr ⟨listed.ordered_offered within, shared⟩)
  obtain ⟨first, head, same⟩ := Table.shares_kind_iff.mp shared
  have made' := Table.gather_eq_ok.mpr ⟨first, head, same, rfl⟩
  refine ⟨_, .next .nothing Nat.one_pos rfl taken, rfl, _,
    Step.ok_of_applied (.gather rfl (Step.take_listed rfl listed.ordered_lists) made'), ?_⟩
  obtain ⟨_, -, -, rfl⟩ := Table.gather_eq_ok.mp made
  refine Table.equivalent_of_keys (Table.gather_shaped shaped made') ?_ ?_
  · simp [Table.width, Table.others_congr sorted]
  · rw [Table.others_congr sorted]
    exact (sorted.symm.flatMap_right _).map Row.key

theorem gatherNeg (listed : t.Lists columns) (bounded : columns.length ≤ config.keepLimit)
    (shaped : t.Shaped) (made : t.gather (t.others columns) = .ok out) :
    Attained config t .gatherNeg out := by
  have sorted := listed.ordered_perm
  -- Some column is left beside those that stay, so not all of them can stay.
  have narrower : columns.length < t.width := by
    obtain ⟨first, head, -⟩ := Table.gather_eq_ok.mp made
    have left : first ∈ t.others columns := List.mem_of_head? head
    obtain ⟨inside, apart⟩ := List.mem_filter.mp left
    have more : t.Lists (first :: columns) := ⟨by simp,
      List.nodup_cons.mpr ⟨of_decide_eq_true apart, listed.different⟩,
      List.forall_mem_cons.mpr ⟨List.mem_range.mp inside, listed.inRange⟩⟩
    exact more.length_le
  have within : columns.length ≤ min config.keepLimit (t.width - 1) :=
    Nat.le_min.mpr ⟨bounded, Nat.le_sub_one_of_lt narrower⟩
  rw [← Table.others_congr sorted] at made
  have taken : Argument.columns (t.ordered columns) ∈
      ((columnChoices (min config.keepLimit (t.width - 1)) t.width).filter
        fun kept => t.sharesKind (t.others kept)).map Argument.columns :=
    List.mem_map_of_mem (List.mem_filter.mpr
      ⟨listed.ordered_offered within, Table.shares_kind_of_gather made⟩)
  exact same shaped (.next .nothing Nat.one_pos rfl taken) rfl
    (Step.ok_of_applied (.gatherNeg rfl (Step.take_listed rfl listed.ordered_lists) made))

theorem separate (shaped : t.Shaped) (inside : c < t.width) (made : t.separate c = .ok out) :
    Attained config t .separate out := by
  obtain ⟨text, separable⟩ := Table.separable_of_separate shaped made
  have taken : Argument.column c ∈
      ((t.columnsOf .text).filter t.isSeparable).map Argument.column :=
    List.mem_map_of_mem (List.mem_filter.mpr
      ⟨Table.mem_columns_of.mpr ⟨inside, text⟩, separable⟩)
  exact same shaped (.next .nothing Nat.one_pos rfl taken) rfl
    (Step.ok_of_applied (.separate rfl (Step.take_column_eq_ok.mpr ⟨rfl, inside⟩) made))

theorem cumsum (shaped : t.Shaped) (inside : c < t.width) (made : t.cumsum c = .ok out) :
    Attained config t .cumsum out := by
  have numeric := (Table.cumsum_eq_ok.mp made).1
  have taken : Argument.column c ∈ (t.columnsOf .number).map Argument.column :=
    List.mem_map_of_mem (Table.mem_columns_of.mpr ⟨inside, numeric⟩)
  exact same shaped (.next .nothing Nat.one_pos rfl taken) rfl
    (Step.ok_of_applied (.cumsum rfl (Step.take_column_eq_ok.mpr ⟨rfl, inside⟩) made))

/-- The first column of an operator that takes any is offered. -/
theorem first_column {op : Operator} {values : List Argument} (inside : c < t.width)
    (some : 0 < op.arity)
    (offered : Step.domain ⟨op, List.replicate op.arity .hole⟩ 1 t config = .ok values)
    (every : values = t.positions.map Argument.column) : Drawing config t op [.column c] := by
  subst every
  exact .next .nothing some offered (List.mem_map_of_mem (List.mem_range.mpr inside))

theorem spread {key value : Nat} (shaped : t.Shaped) (inside : key < t.width)
    (insideValue : value < t.width) (made : t.spread key value = .ok out) :
    Attained config t .spread out := by
  have apart := (Table.spread_eq_ok.mp made).1
  have first : Drawing config t .spread [.column key] :=
    first_column inside (by decide) rfl rfl
  have offered : Step.domain ⟨.spread, [.column key, .hole]⟩ 2 t config =
      .ok ((t.positions.filter (· ≠ key)).map Argument.column) :=
    (Step.column_here_bind inside).mpr rfl
  have taken : Argument.column value ∈ (t.positions.filter (· ≠ key)).map Argument.column :=
    List.mem_map_of_mem (List.mem_filter.mpr
      ⟨List.mem_range.mpr insideValue, decide_eq_true apart.symm⟩)
  exact same shaped (.next first Nat.one_lt_two offered taken) rfl
    (Step.ok_of_applied (.spread rfl (Step.take_column_eq_ok.mpr ⟨rfl, inside⟩)
      (Step.take_column_eq_ok.mpr ⟨rfl, insideValue⟩) made))

/-- A comparison with a constant of the configuration is offered. -/
theorem comparison_drawn {op : Operator} {cmp : Comparison} {constant : Cell}
    (compares : op.compares = true) (inside : c < t.width)
    (accepts : cmp.accepts (t.kind c) = true) (kind : constant.kind = t.kind c)
    (known : cmp ∈ config.comparisons) (listed : constant ∈ config.constants) :
    Drawing config t op [.column c, .comparison cmp, .constant constant] := by
  have takenComparison : Argument.comparison cmp ∈ config.comparisonsOf (t.kind c) :=
    List.mem_map_of_mem (List.mem_filter.mpr ⟨known, accepts⟩)
  have takenConstant : Argument.constant constant ∈ config.constantsOf (t.kind c) :=
    List.mem_map_of_mem (List.mem_filter.mpr ⟨listed, decide_eq_true kind⟩)
  have offered : op.arity = 3 ∧
      Step.domain ⟨op, List.replicate op.arity .hole⟩ 1 t config =
        .ok (t.positions.map Argument.column) ∧
      Step.domain ⟨op, [.column c] ++ List.replicate (op.arity - 1) .hole⟩ 2 t config =
        .ok (config.comparisonsOf (t.kind c)) ∧
      Step.domain ⟨op, [.column c, .comparison cmp] ++ List.replicate (op.arity - 2) .hole⟩ 3 t
        config = .ok (config.constantsOf (t.kind c)) := by
    cases op <;> cases compares <;>
      exact ⟨rfl, rfl, (Step.column_here_bind inside).mpr rfl,
        (Step.column_here_bind inside).mpr rfl⟩
  obtain ⟨arity, columns, comparisons, constants⟩ := offered
  have first : Drawing config t op [.column c] := first_column inside (by omega) columns rfl
  have second : Drawing config t op [.column c, .comparison cmp] :=
    first.next (arity ▸ Nat.lt_add_of_pos_left (Nat.succ_pos 1)) comparisons takenComparison
  exact second.next (arity ▸ Nat.lt_succ_self 2) constants takenConstant

theorem filter {cmp : Comparison} {constant : Cell} (shaped : t.Shaped) (inside : c < t.width)
    (known : cmp ∈ config.comparisons)
    (listed : ∃ known ∈ config.constants, known.canonical = constant.canonical)
    (made : t.filter c cmp constant = .ok out) : Attained config t .filter out := by
  obtain ⟨other, held, value⟩ := listed
  obtain ⟨⟨accepts, kind⟩, rfl⟩ := Table.filter_eq_ok.mp made
  have kind' : other.kind = t.kind c := by
    rw [← kind, ← Cell.kind_canonical, value, Cell.kind_canonical]
  refine same shaped (comparison_drawn rfl inside accepts kind' known held) rfl
    (Step.ok_of_applied (.filter rfl (Step.take_column_eq_ok.mpr ⟨rfl, inside⟩)
      (Step.take_comparison_eq_ok.mpr rfl) (Step.take_constant_eq_ok.mpr rfl)
      (Table.filter_eq_ok.mpr ⟨⟨accepts, kind'⟩, ?_⟩)))
  simp only [Comparison.holds_congr value]

theorem mutateCustom {cmp : Comparison} {constant : Cell} (shaped : t.Shaped)
    (inside : c < t.width) (known : cmp ∈ config.comparisons)
    (listed : ∃ known ∈ config.constants, known.canonical = constant.canonical)
    (made : t.mutateCustom c cmp constant = .ok out) : Attained config t .mutateCustom out := by
  obtain ⟨other, held, value⟩ := listed
  obtain ⟨⟨accepts, kind⟩, rfl⟩ := Table.mutate_custom_eq_ok.mp made
  have kind' : other.kind = t.kind c := by
    rw [← kind, ← Cell.kind_canonical, value, Cell.kind_canonical]
  have made' := Table.mutate_custom_eq_ok.mpr ⟨⟨accepts, kind'⟩, rfl⟩
  have ran : Step.apply ⟨.mutateCustom, [.column c, .comparison cmp, .constant other]⟩ t = .ok _ :=
    Step.ok_of_applied (.mutateCustom rfl (Step.take_column_eq_ok.mpr ⟨rfl, inside⟩)
      (Step.take_comparison_eq_ok.mpr rfl) (Step.take_constant_eq_ok.mpr rfl) made')
  refine ⟨_, comparison_drawn rfl inside accepts kind' known held, rfl, _, ran,
    Table.equivalent_of_keys (Step.apply_shaped shaped ran)
      (by simp [Table.append, Table.width]) ?_⟩
  simp only [Table.append, Table.keys, Comparison.holds_congr value]
  exact .refl _

/-- Summaries over the same groups are equivalent when each group has the same
value in both. -/
theorem summaries_equivalent {columns' : List Nat} {target target' : Option Nat} {f : Aggregate}
    {out' : Table} (sorted : columns ~ columns') (different : columns.Nodup)
    (made : t.groupSum columns target f = .ok out)
    (made' : t.groupSum columns' target' f = .ok out')
    (values : target = target' ∨ f = .count) : out.equivalentTo out' = true := by
  obtain ⟨-, -, rfl⟩ := Table.group_sum_eq_ok.mp made
  obtain ⟨-, -, rfl⟩ := Table.group_sum_eq_ok.mp made'
  refine Table.equivalent_of_rearranged _ sorted different (n := 1)
    (l := firstsBy (fun row => (row.pick columns).key) t.rows) (fun _ _ => rfl) rfl ?_ ?_ ?_
  · dsimp only
    rw [Table.groups_congr sorted]
    refine List.map_congr_left fun row _ => ?_
    rw [Table.rows_like_congr sorted]
    rcases values with rfl | rfl
    · rfl
    · rw [Table.count_map _ _ _]
  all_goals simp [Table.width]

theorem groupSum (listed : t.Lists columns) {target : Option Nat}
    {f : Aggregate} (inside : ∀ c, target = some c → c < t.width) (known : f ∈ config.aggregates)
    (made : t.groupSum columns target f = .ok out) : Attained config t .groupSum out := by
  have sorted := listed.ordered_perm
  have taken : Argument.columns (t.ordered columns) ∈
      (columnChoices t.width t.width).map Argument.columns :=
    List.mem_map_of_mem (listed.ordered_offered listed.length_le)
  have grouped : Drawing config t .groupSum [.columns (t.ordered columns)] :=
    .next .nothing (Nat.succ_pos 2) rfl taken
  by_cases counts : f = .count
  · -- Whatever is counted, the rows are.
    subst counts
    obtain ⟨out', made'⟩ : ∃ out', t.groupSum (t.ordered columns) none .count = .ok out' :=
      ⟨_, Table.group_sum_eq_ok.mpr ⟨listed.ordered_lists.some, rfl, rfl⟩⟩
    have drawn : Drawing config t .groupSum
        [.columns (t.ordered columns), .rows, .aggregate .count] := by
      refine .next (.next grouped (Nat.lt_add_of_pos_left (Nat.succ_pos 1)) rfl ?_)
        (Nat.lt_succ_self 2) rfl List.mem_cons_self
      rw [if_pos known]
      exact List.mem_append_right _ List.mem_cons_self
    refine ⟨_, drawn, rfl, _, Step.ok_of_applied (.groupSum rfl
      (Step.take_listed rfl listed.ordered_lists) (Step.take_target_eq_ok.mpr rfl)
      (Step.take_aggregate_eq_ok.mpr rfl) made'), ?_⟩
    exact summaries_equivalent sorted.symm listed.different made made' (.inr rfl)
  · obtain ⟨-, fits, -⟩ := Table.group_sum_eq_ok.mp made
    cases target with
    | none => exact absurd fits counts
    | some c =>
      obtain ⟨apart, numeric⟩ := fits
      have apart' : c ∉ t.ordered columns := fun member => apart (sorted.subset member)
      obtain ⟨out', made'⟩ : ∃ out', t.groupSum (t.ordered columns) (some c) f = .ok out' :=
        ⟨_, Table.group_sum_eq_ok.mpr ⟨listed.ordered_lists.some, ⟨apart', numeric⟩, rfl⟩⟩
      have drawn : Drawing config t .groupSum
          [.columns (t.ordered columns), .column c, .aggregate f] := by
        refine .next (.next grouped (Nat.lt_add_of_pos_left (Nat.succ_pos 1)) rfl ?_)
          (Nat.lt_succ_self 2) rfl ?_
        · refine List.mem_append_left _ (List.mem_map_of_mem (List.mem_filter.mpr ⟨?_, ?_⟩))
          · exact Table.mem_columns_of.mpr ⟨inside c rfl, numeric⟩
          · exact decide_eq_true apart'
        · exact List.mem_map_of_mem (List.mem_filter.mpr ⟨known, decide_eq_true counts⟩)
      have summed : Step.takeTarget ⟨.groupSum,
          [.columns (t.ordered columns), .column c, .aggregate f]⟩ 2 t.width = .ok (some c) :=
        Step.take_target_eq_ok.mpr ⟨rfl, inside c rfl⟩
      refine ⟨_, drawn, rfl, _, Step.ok_of_applied (.groupSum rfl
        (Step.take_listed rfl listed.ordered_lists) summed
        (Step.take_aggregate_eq_ok.mpr rfl) made'), ?_⟩
      exact summaries_equivalent sorted.symm listed.different made made' (.inl rfl)

end Attained

theorem Step.mem_of_argument {step : Step} {position : Nat} {argument : Argument}
    (read : step.argument? position = some argument) : argument ∈ step.arguments := by
  cases position with
  | zero => cases read
  | succ index => exact List.mem_of_getElem? read

/-- **Domains are complete up to equivalence.** A step other than joining two
columns or computing with two applies to a table, and the configuration knows
its arguments. Then arguments drawn from the domains one after the other make an
equivalent table. -/
theorem domains_complete {config : Config} {t out : Table} {step : Step} (ok : t.WellFormed)
    (operator : step.operator ∈ [.select, .filter, .separate, .spread, .gather, .gatherNeg,
      .groupSum, .cumsum, .mutateCustom])
    (known : ∀ argument ∈ step.arguments, argument.Known config step.operator)
    (applied : step.apply t = .ok out) :
    ∃ arguments, Drawing config t step.operator arguments ∧
      arguments.length = step.operator.arity ∧
      ∃ made, Step.apply ⟨step.operator, arguments⟩ t = .ok made ∧
        out.equivalentTo made = true := by
  have shaped := ok.shaped
  show Attained config t step.operator out
  -- Columns that are taken are listed, and the configuration knows them.
  have listed {columns : List Nat} (taken : step.takeColumns 1 t.width = .ok columns) :
      t.Lists columns ∧ Argument.Known config step.operator (.columns columns) := by
    obtain ⟨read, inRange, different⟩ := Step.take_columns_eq_ok.mp taken
    have within := known _ (Step.mem_of_argument read)
    exact ⟨⟨within.1, different, inRange⟩, within⟩
  have inside {position c : Nat} (taken : step.takeColumn position t.width = .ok c) :
      c < t.width := (Step.take_column_eq_ok.mp taken).2
  have compared {position : Nat} {cmp : Comparison}
      (taken : step.takeComparison position = .ok cmp) : cmp ∈ config.comparisons :=
    known _ (Step.mem_of_argument (Step.take_comparison_eq_ok.mp taken))
  have constant {position : Nat} {cell : Cell} (taken : step.takeConstant position = .ok cell) :
      ∃ known ∈ config.constants, known.canonical = cell.canonical :=
    known _ (Step.mem_of_argument (Step.take_constant_eq_ok.mp taken))
  cases Step.applied_of_ok applied with
  | select op taken made =>
    obtain ⟨-, rfl⟩ := Table.select_eq_ok.mp made
    exact op ▸ Attained.select (listed taken).1
  | filter op taken takenComparison takenConstant made =>
    exact op ▸ Attained.filter shaped (inside taken) (compared takenComparison)
      (constant takenConstant) made
  | separate op taken made => exact op ▸ Attained.separate shaped (inside taken) made
  | spread op takenKey takenValue made =>
    exact op ▸ Attained.spread shaped (inside takenKey) (inside takenValue) made
  | gather op taken made =>
    obtain ⟨lists, -, bounded, -⟩ := listed taken
    exact op ▸ Attained.gather lists (bounded op) shaped made
  | gatherNeg op taken made =>
    obtain ⟨lists, -, -, bounded⟩ := listed taken
    exact op ▸ Attained.gatherNeg lists (bounded op) shaped made
  | @groupSum groups target f _ op taken takenTarget takenAggregate made =>
    have aggregate : f ∈ config.aggregates :=
      known _ (Step.mem_of_argument (Step.take_aggregate_eq_ok.mp takenAggregate))
    refine op ▸ Attained.groupSum (listed taken).1 (fun c same => ?_) aggregate made
    subst same
    exact (Step.take_target_eq_ok.mp takenTarget).2
  | cumsum op taken made => exact op ▸ Attained.cumsum shaped (inside taken) made
  | mutateCustom op taken takenComparison takenConstant made =>
    exact op ▸ Attained.mutateCustom shaped (inside taken) (compared takenComparison)
      (constant takenConstant) made
  | unite op | mutate op => simp [op] at operator

/-- A table with three columns, two of them numbers. -/
def visits : Table :=
  ⟨["site", "month", "guests"], [.text, .text, .number],
    [[.text "a", .text "may", .number 3], [.text "b", .text "may", .number 4],
      [.text "a", .text "may", .number 5]]⟩

/-- Counting the guests by month and site is offered as counting rows by site
and month. -/
theorem domains_complete_visits :
    visits.WellFormed ∧
    (∀ argument ∈ [Argument.columns [1, 0], .column 2, .aggregate .count],
      argument.Known .standard .groupSum) ∧
    ∃ out, Step.apply ⟨.groupSum, [.columns [1, 0], .column 2, .aggregate .count]⟩ visits = .ok out ∧
    ∃ arguments, Drawing .standard visits .groupSum arguments ∧ arguments.length = 3 ∧
      ∃ made, Step.apply ⟨.groupSum, arguments⟩ visits = .ok made ∧
        out.equivalentTo made = true := by
  have ok : visits.WellFormed := ⟨by decide, rfl, by decide⟩
  have known : ∀ argument ∈ [Argument.columns [1, 0], .column 2, .aggregate .count],
      argument.Known .standard .groupSum := by
    simp [Argument.Known, Config.standard, Aggregate.all]
  have ran : ∃ out,
      Step.apply ⟨.groupSum, [.columns [1, 0], .column 2, .aggregate .count]⟩ visits = .ok out :=
    ⟨_, rfl⟩
  obtain ⟨out, applied⟩ := ran
  exact ⟨ok, known, out, applied, domains_complete ok (by decide) known applied⟩

end Reshape
