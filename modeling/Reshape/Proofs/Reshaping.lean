import Reshape.Proofs.Requirements
import Reshape.Proofs.StaticKinds

/-! Requirements behind the operators that change what a row is. The rules
that take gathering, spreading and separating back are made for certain ways to
use the value: both columns that gathering adds, at least one column that
spreading makes beside at most two others, and one of the halves of a separated
column. For these they lose nothing. -/
namespace Reshape

open scoped List

variable {step : Step} {t out required : Table} {mapping : List Nat} {outermost : Bool}

namespace Table

/-- Gathering is taken back by dropping its two columns, of which the column of
names is one of texts. -/
theorem gather_covers (shapedRequired : required.Shaped) (shapedOut : out.Shaped)
    {melted : List Nat} (made : t.gather melted = .ok out) (rows : required.rows ≠ [])
    (found : Matches .included required out mapping) (usesKey : out.width - 2 ∈ mapping)
    (usesValue : out.width - 1 ∈ mapping) :
    ∃ r ∈ Operator.gather.undone required, r.includedIn t = true := by
  obtain ⟨i, insideKey, key⟩ := found.exists_getD usesKey
  obtain ⟨j, insideValue, value⟩ := found.exists_getD usesValue
  have width : out.width = (t.others melted).length + 2 ∧ out.kind (out.width - 2) = .text := by
    obtain ⟨first, -, -, rfl⟩ := gather_eq_ok.mp made
    simp [Table.width, Table.kind, claim_all_length]
  have apart : i ≠ j := by
    rintro rfl
    omega
  have pair : [i, j].Nodup := by simp [apart]
  have inRange : ∀ c ∈ [i, j], c < required.width := by simp [insideKey, insideValue]
  have ordered := filter_mem_perm pair inRange
  -- The two columns, in the order in which they stand, are one of the pairs tried.
  refine ⟨required.without (required.positions.filter (· ∈ [i, j])), ?_,
    found.without_included_below (gather_sourced made) fun c inside other => ?_⟩
  · refine List.mem_map_of_mem (List.mem_filter.mpr ⟨?_, ?_⟩)
    · have chosen := filter_mem_combinations required.width (· ∈ [i, j])
      rwa [ordered.length_eq] at chosen
    · refine List.any_eq_true.mpr ⟨i, ordered.symm.subset (by simp), ?_⟩
      rw [found.kind_eq shapedRequired shapedOut rows insideKey, key, width.2]
      rfl
  · have remains : c ∉ [i, j] := fun gone => other (ordered.symm.subset gone)
    simp only [List.mem_cons, List.not_mem_nil, or_false, not_or] at remains
    have bound := found.inRange _ (found.getD_mem inside)
    have notKey := found.getD_ne inside insideKey key remains.1
    have notValue := found.getD_ne inside insideValue value remains.2
    exact List.mem_range.mpr (by omega)

/-- Separating is taken back by dropping the half that is used. -/
theorem separate_covers (shapedRequired : required.Shaped) (shapedOut : out.Shaped)
    {column half : Nat} (inside : column < t.width) (made : t.separate column = .ok out)
    (rows : required.rows ≠ []) (found : Matches .included required out mapping)
    (isHalf : half < 2) (used : column + half ∈ mapping) (unused : column + (1 - half) ∉ mapping) :
    ∃ r ∈ Operator.separate.undone required, r.includedIn t = true := by
  obtain ⟨-, parts, -, rfl⟩ := separate_eq_ok.mp made
  obtain ⟨c, within, sent⟩ := found.exists_getD used
  refine ⟨required.without [c], List.mem_append_left _ (List.mem_map_of_mem ?_),
    found.without_included_below (split_column_sourced inside parts) fun i bound other => ?_⟩
  · refine List.mem_filter.mpr ⟨List.mem_range.mpr within, decide_eq_true ?_⟩
    rw [found.kind_eq shapedRequired shapedOut rows within, sent]
    exact split_column_kind inside parts isHalf
  · have place := found.inRange _ (found.getD_mem bound)
    rw [split_column_width inside] at place
    have notUsed := found.getD_ne bound within sent (List.ne_of_not_mem_cons other)
    have notOther : mapping.getD i 0 ≠ column + (1 - half) := fun same =>
      unused (same ▸ found.getD_mem bound)
    refine List.mem_filter.mpr ⟨List.mem_range.mpr place, decide_eq_true ?_⟩
    omega

/-- The long table behind a wide one is included wherever each of its cells has
a row that agrees in the columns that stay. The columns that stay and the one of
the values may stand anywhere. -/
theorem molten_included {ids : List Nat} (stay : Nat → Nat) (value : Nat)
    (different : (ids.map stay ++ [value]).Nodup)
    (inRange : ∀ c ∈ ids.map stay ++ [value], c < t.width) (wide : required.others ids ≠ [])
    (kinds : ∀ c ∈ required.others ids, ∀ d ∈ required.others ids,
      required.kind c = required.kind d)
    (rows : ∀ row ∈ required.rows, ∀ c ∈ required.others ids, ∃ held ∈ t.rows,
      (∀ i ∈ ids, (held.at (stay i)).key = (row.at i).key) ∧
        (held.at value).key = (row.at c).key) :
    ∃ r, required.molten? ids = some r ∧ r.includedIn t = true := by
  rw [molten?]
  split
  · rename_i none
    exact absurd none wide
  · rename_i first rest others
    rw [others] at kinds rows
    have alike : ¬ rest.any (fun c => required.kind c ≠ required.kind first) = true := by
      intro mixed
      obtain ⟨c, later, other⟩ := List.any_eq_true.mp mixed
      exact of_decide_eq_true other
        (kinds c (List.mem_cons_of_mem _ later) first List.mem_cons_self)
    rw [if_neg alike]
    refine ⟨_, rfl, dedup_included (by simp [width]) different inRange fun long member => ?_⟩
    obtain ⟨row, wanted, member⟩ := List.mem_flatMap.mp member
    obtain ⟨c, chosen, rfl⟩ := List.mem_map.mp member
    obtain ⟨held, inTable, stays, cell⟩ := rows row wanted c chosen
    refine ⟨held, inTable, ?_⟩
    simpa [Row.pick, Row.key, cell] using stays

/-- The columns that are sent in front of some place. -/
def sentBefore (required : Table) (mapping : List Nat) (place : Nat) : List Nat :=
  required.positions.filter fun i => mapping.getD i 0 < place

theorem mem_sent_before {place i : Nat} :
    i ∈ required.sentBefore mapping place ↔ i < required.width ∧ mapping.getD i 0 < place := by
  simp [sentBefore, positions]

theorem mem_others_sent_before {place i : Nat} :
    i ∈ required.others (required.sentBefore mapping place) ↔
      i < required.width ∧ place ≤ mapping.getD i 0 := by
  rw [others, List.mem_filter, positions, List.mem_range, decide_eq_true_eq, mem_sent_before]
  omega

/-- As many columns are sent in front of a place as there are targets in front
of it. -/
theorem Matches.sent_before_length {mode : Matching} (found : Matches mode required out mapping)
    (place : Nat) : (required.sentBefore mapping place).length =
      (mapping.filter (· < place)).length := by
  have whole : mapping = required.positions.map (mapping.getD · 0) := by
    refine List.ext_getElem (by simp [positions, found.total]) fun i inside _ => ?_
    simp [positions, inside]
  conv_rhs => rw [whole, List.filter_map, List.length_map]
  rfl

theorem spread_kept_length {key value : Nat} (insideKey : key < t.width)
    (insideValue : value < t.width) (made : t.spread key value = .ok out) :
    (t.others [key, value]).length = t.width - 2 := by
  have apart := (spread_eq_ok.mp made).1
  have different : [key, value].Nodup := by simp [apart]
  have kept := others_length different fun c member => by
    rcases List.mem_pair.mp member with rfl | rfl <;> assumption
  simp only [List.length_cons, List.length_nil] at kept
  omega

/-- The columns that spreading makes have the kind of the values. -/
theorem spread_kind {key value : Nat} (made : t.spread key value = .ok out) {d : Nat}
    (later : (t.others [key, value]).length ≤ d) (inside : d < out.width) :
    out.kind d = t.kind value := by
  obtain ⟨-, -, -, rows, -, rfl⟩ := spread_eq_ok.mp made
  simp only [width, List.length_append, List.length_map, claim_all_length] at inside
  rw [kind, List.getD_append_right _ _ _ _ (by simpa using later),
    List.getD_eq_getElem _ _ (by simp; omega), List.getElem_map]

/-- Different columns in front of the spread ones come from different columns,
none of them that of the values. -/
theorem spread_kept_nodup {mode : Matching} (found : Matches mode required out mapping)
    (key value : Nat) :
    ((required.sentBefore mapping (t.others [key, value]).length).map
      (fun i => (t.others [key, value]).getD (mapping.getD i 0) 0) ++ [value]).Nodup := by
  have comes : ColumnsFrom t _ ((t.others [key, value]).getD · 0) :=
    columns_from_listed (others_nodup _) others_lt
  refine List.nodup_append.mpr ⟨(List.nodup_range.filter _).map_on ?_, List.nodup_singleton _, ?_⟩
  · intro i left j right same
    obtain ⟨insideI, beforeI⟩ := mem_sent_before.mp left
    obtain ⟨insideJ, beforeJ⟩ := mem_sent_before.mp right
    exact found.getD_inj insideI insideJ
      (comes.different _ (List.mem_range.mpr beforeI) _ (List.mem_range.mpr beforeJ) same)
  · -- The column of the values is none of those that stay in front.
    rintro c kept d last rfl
    obtain ⟨i, chosen, rfl⟩ := List.mem_map.mp kept
    have before := (mem_sent_before.mp chosen).2
    rw [List.getD_eq_getElem _ _ before] at last
    have stays := (List.mem_filter.mp (List.getElem_mem before)).2
    rw [List.mem_singleton.mp last] at stays
    simp at stays

/-- What is required of a spread table, with its spread columns below each
other, is included in the table that was spread. -/
theorem spread_molten_included (shapedRequired : required.Shaped) (shapedOut : out.Shaped)
    {key value : Nat} (insideValue : value < t.width) (made : t.spread key value = .ok out)
    (rows : required.rows ≠ []) (found : Matches .included required out mapping)
    (usesSpread : ∃ d ∈ mapping, (t.others [key, value]).length ≤ d) :
    ∃ r, required.molten? (required.sentBefore mapping (t.others [key, value]).length) = some r ∧
      r.includedIn t = true := by
  have kindOf {c : Nat} (inside : c < required.width)
      (later : (t.others [key, value]).length ≤ mapping.getD c 0) :
      required.kind c = t.kind value := by
    rw [found.kind_eq shapedRequired shapedOut rows inside]
    exact spread_kind made later (found.inRange _ (found.getD_mem inside))
  refine molten_included _ value (spread_kept_nodup found key value) ?_ ?_ ?_ ?_
  · intro c member
    rcases List.mem_append.mp member with kept | last
    · obtain ⟨i, chosen, rfl⟩ := List.mem_map.mp kept
      rw [List.getD_eq_getElem _ _ (mem_sent_before.mp chosen).2]
      exact others_lt _ (List.getElem_mem _)
    · rwa [List.mem_singleton.mp last]
  · obtain ⟨d, used, later⟩ := usesSpread
    obtain ⟨c, inside, rfl⟩ := found.exists_getD used
    exact List.ne_nil_of_mem (mem_others_sent_before.mpr ⟨inside, later⟩)
  · intro c left d right
    obtain ⟨insideC, laterC⟩ := mem_others_sent_before.mp left
    obtain ⟨insideD, laterD⟩ := mem_others_sent_before.mp right
    exact (kindOf insideC laterC).trans (kindOf insideD laterD).symm
  · intro row wanted c chosen
    obtain ⟨insideC, laterC⟩ := mem_others_sent_before.mp chosen
    obtain ⟨produced, inOut, agrees⟩ := found.row wanted
    obtain ⟨held, inTable, stands, cell⟩ := spread_row made inOut laterC
      (found.inRange _ (found.getD_mem insideC))
    refine ⟨held, inTable, fun i kept => ?_, ?_⟩
    · obtain ⟨insideI, before⟩ := mem_sent_before.mp kept
      exact (stands _ (List.mem_range.mpr before)).trans (agrees i insideI)
    · rw [cell]
      exact agrees c insideC

/-- Spreading is taken back by writing the columns that it makes below each
other. -/
theorem spread_covers (shapedRequired : required.Shaped) (shapedOut : out.Shaped) {key value : Nat}
    (insideKey : key < t.width) (insideValue : value < t.width)
    (made : t.spread key value = .ok out) (rows : required.rows ≠ [])
    (found : Matches .included required out mapping) (usesSpread : ∃ d ∈ mapping, t.width - 2 ≤ d)
    (fewStay : (mapping.filter (· < t.width - 2)).length ≤ 2) :
    ∃ r ∈ Operator.spread.undone required, r.includedIn t = true := by
  rw [← spread_kept_length insideKey insideValue made] at usesSpread fewStay
  obtain ⟨r, molten, included⟩ :=
    spread_molten_included shapedRequired shapedOut insideValue made rows found usesSpread
  rw [← found.sent_before_length] at fewStay
  have some : (required.sentBefore mapping (t.others [key, value]).length).length <
      required.width := by
    obtain ⟨d, used, later⟩ := usesSpread
    obtain ⟨c, inside, rfl⟩ := found.exists_getD used
    have size := List.length_filter_lt_length_iff_exists
      (l := required.positions) (p := fun i => mapping.getD i 0 < (t.others [key, value]).length)
    rw [positions, List.length_range] at size
    exact size.mpr ⟨c, List.mem_range.mpr inside, by simpa using later⟩
  refine ⟨r, List.mem_flatMap.mpr ⟨_, List.mem_range.mpr ?_,
    List.mem_filterMap.mpr ⟨_, filter_mem_combinations _ _, molten⟩⟩, included⟩
  have size : (required.sentBefore mapping (t.others [key, value]).length).length ≤
    min 2 (required.width - 1) := by omega
  exact Nat.lt_succ_of_le size

end Table

/-- How a match has to use the value of a reshaping step for the rules to be
made for it. Gathering puts its columns of names and of cells last; spreading
leaves all but two of its columns in front; and separating puts the halves in
the place of the column. -/
def Step.Undoable (step : Step) (t out : Table) (mapping : List Nat) : Prop :=
  match step.operator with
  | .gather | .gatherNeg => out.width - 2 ∈ mapping ∧ out.width - 1 ∈ mapping
  | .spread =>
    (∃ d ∈ mapping, t.width - 2 ≤ d) ∧ (mapping.filter (· < t.width - 2)).length ≤ 2
  | .separate =>
    ∃ c, step.argument? 1 = some (.column c) ∧ (c ∈ mapping ↔ c + 1 ∉ mapping)
  | _ => False

/-- **Gathering, spreading and separating lose nothing on the way back** where
the match uses their value in the way that the rules are made for. One of the
requirements handed down is then included below, whether or not the operator is
the outermost one. -/
theorem Step.backward_covers_reshaping (shaped : t.Shaped) (shapedRequired : required.Shaped)
    (ran : step.apply t = .ok out) (rows : required.rows ≠ [])
    (found : Table.Matches .included required out mapping)
    (undoable : step.Undoable t out mapping) :
    ∃ r ∈ step.operator.backward required outermost, r.includedIn t = true := by
  have shapedOut := apply_shaped shaped ran
  suffices listed : ∃ r ∈ step.operator.undone required, r.includedIn t = true by
    obtain ⟨r, undone, included⟩ := listed
    exact Operator.backward_of_undone undone included
  rw [Undoable] at undoable
  cases applied_of_ok ran with
  | gather op _ made =>
    simp only [op] at undoable ⊢
    exact Table.gather_covers shapedRequired shapedOut made rows found undoable.1 undoable.2
  | gatherNeg op _ made =>
    simp only [op] at undoable ⊢
    exact Table.gather_covers shapedRequired shapedOut made rows found undoable.1 undoable.2
  | spread op takenKey takenValue made =>
    simp only [op] at undoable ⊢
    exact Table.spread_covers shapedRequired shapedOut (take_column_eq_ok.mp takenKey).2
      (take_column_eq_ok.mp takenValue).2 made rows found undoable.1 undoable.2
  | @separate column _ op taken made =>
    simp only [op] at undoable ⊢
    obtain ⟨c, read, half⟩ := undoable
    obtain ⟨own, inside⟩ := take_column_eq_ok.mp taken
    obtain rfl : c = column := by simpa [own] using read.symm
    by_cases left : c ∈ mapping
    · exact Table.separate_covers shapedRequired shapedOut inside made rows found
        (by decide : 0 < 2) left (half.mp left)
    · have right : c + 1 ∈ mapping := by
        by_contra absent
        exact left (half.mpr absent)
      exact Table.separate_covers shapedRequired shapedOut inside made rows found
        (by decide : 1 < 2) right left
  | select op | unite op | filter op | groupSum op | cumsum op | mutate op | mutateCustom op =>
    simp [op] at undoable

namespace Reshaping

/-- Amounts by name and quarter, one to a row. -/
def long : Table where
  columns := ["name", "quarter", "amount"]
  kinds := [.text, .text, .number]
  rows := [[.text "a", .text "Q1", .number 1], [.text "a", .text "Q2", .number 2],
    [.text "b", .text "Q1", .number 3], [.text "b", .text "Q2", .number 4]]

/-- The quarters become columns. -/
def spreading : Step := ⟨.spread, [.column 1, .column 2]⟩

/-- The value of the spreading step. -/
def wide : Table where
  columns := ["name", "Q1", "Q2"]
  kinds := [.text, .number, .number]
  rows := [[.text "a", .number 1, .number 2], [.text "b", .number 3, .number 4]]

/-- The quarters of one name, the later one first. -/
def quarters : Table where
  columns := ["later", "name", "earlier"]
  kinds := [.number, .text, .number]
  rows := [[.number 4, .text "b", .number 3]]

end Reshaping

open Reshaping in
theorem backward_covers_reshaping_quarters :
    spreading.apply long = .ok wide ∧ Table.align .included quarters wide = some [2, 0, 1] ∧
      spreading.Undoable long wide [2, 0, 1] ∧
      ∃ r ∈ Operator.spread.backward quarters true, r.includedIn long = true := by
  have ran : spreading.apply long = .ok wide := by decide +kernel
  have aligned : Table.align .included quarters wide = some [2, 0, 1] := by decide +kernel
  have undoable : spreading.Undoable long wide [2, 0, 1] := ⟨⟨2, by decide, by decide⟩, by decide⟩
  exact ⟨ran, aligned, undoable, Step.backward_covers_reshaping ⟨rfl, by simp [long]⟩
    ⟨rfl, by simp [quarters]⟩ ran (by decide) (Table.align_some aligned).1 undoable⟩

end Reshape
