import Reshape.Program.Schema
import Reshape.Proofs.Alignment
import Reshape.Proofs.Shape
import Reshape.Search.Instantiation

/-! Kinds told in advance. Where the kinds of a step's columns can be told from
those of the table below, they are the kinds that the step really makes; and a
table that includes another has room for the kinds of its columns. Together
these say that ruling a step out by its kinds never loses a step whose value
would have met the premise. -/
namespace Reshape

namespace Step

variable {step : Step} {position width : Nat}

/-- A column that a step takes is there for kinds alone. -/
theorem column_here_of_take_column {c : Nat} (taken : step.takeColumn position width = .ok c) :
    step.columnHere position width = .ok c := by
  obtain ⟨read, inside⟩ := take_column_eq_ok.mp taken
  rw [columnHere, read]
  exact check_column_eq_ok.mpr ⟨inside, rfl⟩

theorem columns_here_of_take_columns {columns : List Nat}
    (taken : step.takeColumns position width = .ok columns) :
    step.columnsHere position width = .ok columns := by
  obtain ⟨read, inside, -⟩ := take_columns_eq_ok.mp taken
  rw [columnsHere, read]
  exact if_pos (by simpa using inside)

/-- The columns that stay in front, and the kind shared by the gathered ones. -/
theorem gathered_kinds_eq {t : Table} (shaped : t.Shaped) {melted : List Nat} {first : Nat}
    (inside : ∀ c ∈ melted, c < t.width) (head : melted.head? = some first)
    (same : ∀ c ∈ melted, t.kind c = t.kind first) {test : Nat → Bool}
    (tests : ∀ c < t.width, test c = decide (c ∈ melted)) :
    gatheredKinds t.kinds test = (t.others melted).map t.kind ++ [.text, t.kind first] := by
  have width : t.kinds.length = t.width := shaped.typed
  have kept : (List.range t.width).filter (fun c => !test c) = t.others melted := by
    refine List.filter_congr fun c member => ?_
    rw [tests c (List.mem_range.mp member)]
    simp
  have found : ∃ c, (List.range t.width).find? test = some c ∧ t.kind c = t.kind first := by
    have member := List.mem_of_head? head
    cases found : (List.range t.width).find? test with
    | none =>
      have missed := List.find?_eq_none.mp found first (List.mem_range.mpr (inside first member))
      rw [tests first (inside first member)] at missed
      simp [member] at missed
    | some c =>
      have passed := List.find?_some found
      rw [tests c (List.mem_range.mp (List.mem_of_find?_eq_some found))] at passed
      exact ⟨c, rfl, same c (by simpa using passed)⟩
  obtain ⟨c, found, kind⟩ := found
  simp only [gatheredKinds, width, kept, found, Option.map_some, Option.getD_some]
  exact congrArg (fun k => (t.others melted).map t.kind ++ [Kind.text, k]) kind

/-- **Kinds are told in advance.** Where a step applies, its kinds are told from those of the
table below, and they are the kinds that it makes; only spreading and separating need the
data for that. -/
theorem kinds_eq_of_apply {t out : Table} (shaped : t.Shaped) (ran : step.apply t = .ok out)
    (told : step.operator.kindsFromData = false) : step.kinds t.kinds = .ok out.kinds := by
  have width : t.kinds.length = t.width := shaped.typed
  rw [Step.kinds]
  cases applied_of_ok ran with
  | select op taken made =>
    obtain ⟨-, rfl⟩ := Table.select_eq_ok.mp made
    simp only [op, width, columns_here_of_take_columns taken]
    rfl
  | unite op takenLeft takenRight _ made =>
    obtain ⟨-, rfl⟩ := Table.unite_eq_ok.mp made
    simp only [op, width, column_here_of_take_column takenLeft,
      column_here_of_take_column takenRight]
    rfl
  | filter op _ _ _ made =>
    obtain ⟨-, rfl⟩ := Table.filter_eq_ok.mp made
    simp only [op]
  | separate op _ _ | spread op _ _ _ =>
    rw [op] at told
    cases told
  | gather op taken made =>
    obtain ⟨first, head, same, rfl⟩ := Table.gather_eq_ok.mp made
    have inside := (take_columns_eq_ok.mp taken).2.1
    simp only [op, width, columns_here_of_take_columns taken]
    exact congrArg Except.ok (gathered_kinds_eq shaped inside head same fun c _ => rfl)
  | @gatherNeg kept _ op taken made =>
    obtain ⟨first, head, same, rfl⟩ := Table.gather_eq_ok.mp made
    simp only [op, width, columns_here_of_take_columns taken]
    have beside : ∀ c < t.width, (decide (c ∉ kept)) = decide (c ∈ t.others kept) := by
      intro c inside
      simp [Table.others, Table.positions, inside]
    exact congrArg Except.ok (gathered_kinds_eq shaped Table.others_lt head same beside)
  | groupSum op taken _ _ made =>
    obtain ⟨-, -, rfl⟩ := Table.group_sum_eq_ok.mp made
    simp only [op, width, columns_here_of_take_columns taken]
    rfl
  | cumsum op _ made =>
    obtain ⟨-, rfl⟩ := Table.cumsum_eq_ok.mp made
    simp only [op]
    rfl
  | mutate op _ _ _ made =>
    obtain ⟨-, rfl⟩ := Table.mutate_eq_ok.mp made
    simp only [op]
    rfl
  | mutateCustom op _ _ _ made =>
    obtain ⟨-, rfl⟩ := Table.mutate_custom_eq_ok.mp made
    simp only [op]
    rfl

/-- Whose kinds are told at all does not make them of the data. -/
theorem told_in_advance {kinds told : List Kind} (ok : step.kinds kinds = .ok told) :
    step.operator.kindsFromData = false := by
  cases op : step.operator <;> simp [Step.kinds, op] at ok <;> rfl

end Step

/-- A step whose kinds come from the data leaves evaluation to tell them, and any other one
has below it steps that were told. -/
theorem kinds_of_steps_eq {inputs : List Table} (shaped : ∀ t ∈ inputs, t.Shaped) {input : Nat}
    {steps : List Step} {value : Table} (ran : evalSteps inputs input steps = .ok value) :
    kindsOfSteps inputs input steps = .ok value.kinds := by
  induction steps generalizing value with
  | nil => rw [kindsOfSteps, ran, Except.map]
  | cons step rest ih =>
    rw [kindsOfSteps]
    cases told : step.operator.kindsFromData with
    | true => rw [if_pos rfl, ran, Except.map]
    | false =>
      obtain ⟨below, ranBelow, applied⟩ := bind_eq_ok.mp ran
      rw [if_neg nofun, ih ranBelow]
      exact Step.kinds_eq_of_apply (eval_steps_shaped shaped ranBelow) applied told

/-- **Kinds told in advance are those of the value.** Whatever has a value on tables of the
right shape, be it a program or a step whose kinds do not come from the data, is given the
kinds that this value has; so no kinds are refused or wrong where there is a value. -/
theorem column_kinds_of_eval :
    (∀ (p : Program) (inputs : List Table), (∀ t ∈ inputs, t.Shaped) →
      ∀ value, p.eval inputs = .ok value → p.columnKinds inputs = .ok value.kinds) ∧
    ∀ (step : Step) (t : Table), step.operator ∉ [.spread, .separate] → t.Shaped →
      ∀ out, step.apply t = .ok out → step.kinds t.kinds = .ok out.kinds := by
  refine ⟨fun p inputs shaped value ran => kinds_of_steps_eq shaped ran,
    fun step t others shaped out ran => Step.kinds_eq_of_apply shaped ran ?_⟩
  cases op : step.operator <;> simp [op] at others <;> rfl

namespace StaticKinds

/-- Counts of two quarters by a code. -/
def counts : Table where
  columns := ["code", "q1", "q2"]
  kinds := [.text, .number, .number]
  rows := [[.text "a-b", .number 1, .number 2]]

/-- The counts with the code in two halves. -/
def halves : Table where
  columns := ["code1", "code2", "q1", "q2"]
  kinds := [.text, .text, .number, .number]
  rows := [[.text "a", .text "b", .number 1, .number 2]]

/-- Gathers what is not one of the halves. -/
def gathering : Step := ⟨.gatherNeg, [.columns [0, 1]]⟩

/-- The value of gathering the halves. -/
def gathered : Table where
  columns := ["code1", "code2", "KEY", "VALUE"]
  kinds := [.text, .text, .text, .number]
  rows := [[.text "a", .text "b", .text "q1", .number 1],
    [.text "a", .text "b", .text "q2", .number 2]]

end StaticKinds

open StaticKinds in
theorem column_kinds_of_eval_gathering :
    Program.columnKinds ⟨0, [gathering, ⟨.separate, [.column 0]⟩]⟩ [counts] =
        .ok [.text, .text, .text, .number] ∧
      gathering.kinds halves.kinds = .ok [.text, .text, .text, .number] := by
  obtain ⟨ofProgram, ofStep⟩ := column_kinds_of_eval
  have shaped : counts.Shaped := ⟨rfl, by decide⟩
  have evaluated : Program.eval ⟨0, [gathering, ⟨.separate, [.column 0]⟩]⟩ [counts] =
      .ok gathered := by decide +kernel
  have applied : gathering.apply halves = .ok gathered := by decide +kernel
  exact ⟨ofProgram _ [counts] (by simpa using shaped) gathered evaluated,
    ofStep gathering halves (by decide) ⟨rfl, by decide⟩ gathered applied⟩

@[simp] theorem Cell.kind_key (cell : Cell) : cell.key.kind = cell.kind := by
  cases cell <;> rfl

namespace Table

/-- The kinds of a table's columns, read off a match of one of its rows. -/
theorem Matches.kinds_eq {required actual : Table} {mapping : List Nat} {mode : Matching}
    (found : Matches mode required actual mapping) (shapedRequired : required.Shaped)
    (shapedActual : actual.Shaped) {row : Row} (held : row ∈ required.rows) :
    required.kinds = mapping.map actual.kind := by
  have inside := found.subperm.subset (List.mem_map_of_mem held)
  obtain ⟨other, projected, same⟩ := List.mem_map.mp inside
  have kindsOfKey (row : Row) : row.key.map Cell.kind = row.map Cell.kind := by
    simp [Row.key]
  rw [← shapedRequired.filled row held, ← kindsOfKey, ← same, kindsOfKey]
  exact (project_shaped shapedActual mapping).filled other projected

/-- A table that includes another has a column of the right kind for each of
its columns. -/
theorem fits_kinds_of_included {target t : Table} (shapedTarget : target.Shaped)
    (shaped : t.Shaped) (included : target.includedIn t = true) :
    target.fitsKinds t.kinds = true := by
  obtain ⟨mapping, found⟩ := included_in_iff.mp included
  rw [fitsKinds, decide_eq_true_eq]
  cases rows : target.rows with
  | nil => exact .inl (by simp [height, rows])
  | cons row rest =>
    refine .inr (List.all_eq_true.mpr fun kind _ => decide_eq_true ?_)
    have inside : List.Subperm mapping t.positions :=
      List.subperm_of_subset found.different fun c member =>
        List.mem_range.mpr (found.inRange c member)
    have kinds : t.positions.map t.kind = t.kinds := by
      refine List.ext_getElem (by simp [positions, width, shaped.typed]) fun i _ bound => ?_
      simp [positions, Table.kind, List.getElem?_eq_getElem bound]
    rw [found.kinds_eq shapedTarget shaped (rows ▸ List.mem_cons_self), ← kinds]
    exact (subperm_map t.kind inside).count_le kind

end Table

/-- The kinds told in advance have room for whatever the value of a step includes. -/
theorem Step.fits_kinds_of_apply {step : Step} {t out target : Table} {kinds : List Kind}
    (shapedTarget : target.Shaped) (shaped : t.Shaped) (told : step.kinds t.kinds = .ok kinds)
    (ran : step.apply t = .ok out) (included : target.includedIn out = true) :
    target.fitsKinds kinds = true := by
  rw [kinds_eq_of_apply shaped ran (told_in_advance told)] at told
  cases told
  exact Table.fits_kinds_of_included shapedTarget (apply_shaped shaped ran) included

/-- **Ruling out loses nothing.** A step whose kinds rule it out has no value
that meets the premise at its depth. -/
theorem Search.not_holds_of_ruled_out {chain : Chain} {depth : Nat} {step : Step}
    {below value : Table} (shapedChain : ∀ target ∈ chain, target.Shaped) (shaped : below.Shaped)
    (ruled : Search.ruledOut chain depth step below = true) (ran : step.apply below = .ok value) :
    chain.holdsAt depth value = false := by
  rw [ruledOut] at ruled
  split at ruled
  · rename_i kinds told
    rw [Chain.fitsAt] at ruled
    rw [Chain.holdsAt]
    split
    · rename_i target held
      rw [held] at ruled
      by_contra included
      have room := Step.fits_kinds_of_apply (shapedChain target (List.mem_of_getElem? held)) shaped
        told ran (by simpa using included)
      simp [room] at ruled
    · rename_i missing
      simp [missing] at ruled
  · cases ruled

end Reshape
