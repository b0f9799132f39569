import Mathlib.Data.List.GetD
import Mathlib.Data.List.Forall2
import Reshape.Proofs.Application
import Reshape.Proofs.Choices
import Reshape.Proofs.Multiplicity
import Reshape.Requirement.Backward

/-! The shape of tables: a kind for each column, and in each row a cell of its
column's kind for each column. Every operator keeps it, and so does every rule
that pushes a requirement back through an operator. Column names play no part
here, so nothing is said about them. -/
namespace Reshape

/-- One kind per column and one cell of that kind per column in every row. Every
well-formed table is like this, whatever its column names. -/
structure Table.Shaped (t : Table) : Prop where
  typed : t.kinds.length = t.columns.length
  filled : ∀ row ∈ t.rows, row.map Cell.kind = t.kinds

@[simp] theorem Cell.kind_text (s : String) : (Cell.text s).kind = .text := rfl

@[simp] theorem Cell.kind_number (x : Float) : (Cell.number x).kind = .number := rfl

@[simp] theorem Cell.kind_boolean (b : Bool) : (Cell.boolean b).kind = .boolean := rfl

section Splice

variable {α : Type} {width place : Nat} {gone : List Nat} {new : List α} {old : Nat → α}

theorem mem_spliced_at {c : Nat} {a : α}
    (member : a ∈ if c = place then new else if c ∈ gone then [] else [old c]) :
    c = place ∧ a ∈ new ∨ c ≠ place ∧ c ∉ gone ∧ a = old c := by
  split_ifs at member with here left
  · exact .inl ⟨here, member⟩
  · cases member
  · exact .inr ⟨here, left, List.mem_singleton.mp member⟩

/-- With columns replaced there are new entries and old ones that stay. -/
theorem mem_splice {a : α} (member : a ∈ splice width place gone new old) :
    a ∈ new ∨ ∃ c < width, c ≠ place ∧ c ∉ gone ∧ a = old c := by
  obtain ⟨c, inside, member⟩ := List.mem_flatMap.mp member
  rcases mem_spliced_at member with ⟨-, added⟩ | ⟨other, stays, same⟩
  · exact .inl added
  · exact .inr ⟨c, List.mem_range.mp inside, other, stays, same⟩

end Splice

namespace Table

variable {t out : Table}

theorem WellFormed.shaped (ok : t.WellFormed) : t.Shaped := ⟨ok.typed, ok.filled⟩

theorem others_lt {columns : List Nat} : ∀ c ∈ t.others columns, c < t.width :=
  fun _ member => List.mem_range.mp (List.mem_filter.mp member).1

/-- Tables with as many columns, of the same kinds. -/
structure SameKinds (t t' : Table) : Prop where
  width : t'.width = t.width
  kinds : t'.kinds = t.kinds

namespace SameKinds

variable {t' : Table} (same : t.SameKinds t')
include same

theorem kind (c : Nat) : t'.kind c = t.kind c := by rw [Table.kind, same.kinds, Table.kind]

theorem positions : t'.positions = t.positions := by
  rw [Table.positions, same.width, Table.positions]

theorem columns_of (kind : Kind) : t'.columnsOf kind = t.columnsOf kind := by
  simp only [columnsOf, same.positions, same.kind]

theorem joinable : t'.joinable = t.joinable := by
  simp only [Table.joinable, same.positions, same.kind]

theorem others (columns : List Nat) : t'.others columns = t.others columns := by
  rw [Table.others, same.positions, Table.others]

end SameKinds

/-- A cell has the kind of its column, and what stands for a cell beyond the
last one has the kind that stands for its column. -/
theorem Shaped.kind_at (shaped : t.Shaped) {row : Row} (member : row ∈ t.rows) (c : Nat) :
    (row.at c).kind = t.kind c := by
  rw [kind, ← shaped.filled row member]
  exact (List.getD_map row (default : Cell) Cell.kind).symm

theorem Shaped.kinds_pick (shaped : t.Shaped) {row : Row} (member : row ∈ t.rows)
    (columns : List Nat) : (row.pick columns).map Cell.kind = columns.map t.kind := by
  simp [Row.pick, shaped.kind_at member]

theorem project_shaped (shaped : t.Shaped) (columns : List Nat) : (t.project columns).Shaped := by
  refine ⟨by simp [project], ?_⟩
  intro row member
  obtain ⟨old, held, rfl⟩ := List.mem_map.mp member
  exact shaped.kinds_pick held columns

theorem dedup_shaped (shaped : t.Shaped) : t.dedup.Shaped :=
  ⟨shaped.typed, fun row member => shaped.filled row (mem_firsts_by member)⟩

theorem without_shaped (shaped : t.Shaped) (columns : List Nat) : (t.without columns).Shaped :=
  dedup_shaped (project_shaped shaped _)

/-- Replacing columns commutes with any function of the entries. -/
theorem map_splice {α β : Type} (f : α → β) (width place : Nat) (gone : List Nat) (new : List α)
    (old : Nat → α) : (Reshape.splice width place gone new old).map f =
      Reshape.splice width place gone (new.map f) (fun c => f (old c)) := by
  rw [Reshape.splice, Reshape.splice, List.map_flatMap]
  refine List.flatMap_congr fun c _ => ?_
  split_ifs <;> rfl

theorem mem_zip_with {α β γ : Type} {f : α → β → γ} {l : List α} {l' : List β} {c : γ}
    (member : c ∈ List.zipWith f l l') : ∃ a ∈ l, ∃ b ∈ l', c = f a b := by
  rw [← List.map_uncurry_zip_eq_zipWith] at member
  obtain ⟨⟨a, b⟩, paired, rfl⟩ := List.mem_map.mp member
  exact ⟨a, (List.of_mem_zip paired).1, b, (List.of_mem_zip paired).2, rfl⟩

/-- New columns keep the shape when each added cell has its column's kind. -/
theorem splice_shaped (shaped : t.Shaped) (place : Nat) (gone : List Nat)
    {new : List (String × Kind)} {cells : List Row}
    (added : ∀ row ∈ cells, row.map Cell.kind = new.map (·.2)) :
    (t.splice place gone new cells).Shaped := by
  constructor
  · have units {α : Type} (l : List α) : l.length = (l.map fun _ => ()).length := by simp
    rw [units (t.splice place gone new cells).kinds, units (t.splice place gone new cells).columns]
    simp only [splice, map_splice, List.map_map, Function.comp_def]
  · intro row member
    obtain ⟨old, held, cell, given, rfl⟩ := mem_zip_with member
    rw [map_splice, added cell given]
    simp only [splice, shaped.kind_at held]

theorem append_shaped (shaped : t.Shaped) (name : String) {kind : Kind} {cells : List Cell}
    (added : ∀ cell ∈ cells, cell.kind = kind) : (t.append name kind cells).Shaped := by
  refine ⟨by simp [append, shaped.typed], ?_⟩
  intro row member
  obtain ⟨old, held, cell, given, rfl⟩ := mem_zip_with member
  simp [append, shaped.filled old held, added cell given]

/-- The cells of a column of fragments have the kind given to the column. -/
theorem of_fragments_kind {fragments : List (List Char)} {cell : Cell}
    (member : cell ∈ (Cell.ofFragments fragments).2) :
    cell.kind = (Cell.ofFragments fragments).1 := by
  rw [Cell.ofFragments] at member ⊢
  split at member
  · rename_i numeric
    rw [if_pos numeric]
    obtain ⟨fragment, held, rfl⟩ := List.mem_map.mp member
    obtain ⟨x, read⟩ := Option.isSome_iff_exists.mp (List.all_eq_true.mp numeric.2 fragment held)
    simp [Cell.ofFragment, read]
  · rename_i mixed
    rw [if_neg mixed]
    obtain ⟨fragment, -, rfl⟩ := List.mem_map.mp member
    rfl

/-- Splitting puts two columns of fragments in the place of one. -/
theorem split_column_eq (t : Table) (column : Nat) (parts : List (List Char × List Char)) :
    t.splitColumn column parts =
      let lefts := Cell.ofFragments (parts.map (·.1))
      let rights := Cell.ofFragments (parts.map (·.2))
      let leftName := (Text.Names.reserving t.columns).claim (t.name column ++ "1")
      let rightName := leftName.2.claim (t.name column ++ "2")
      t.splice column [] [(leftName.1, lefts.1), (rightName.1, rights.1)]
        (List.zipWith (fun left right => [left, right]) lefts.2 rights.2) := rfl

theorem split_column_shaped (shaped : t.Shaped) (column : Nat)
    (parts : List (List Char × List Char)) : (t.splitColumn column parts).Shaped := by
  rw [split_column_eq]
  refine splice_shaped shaped column [] fun row member => ?_
  obtain ⟨left, heldLeft, right, heldRight, rfl⟩ := mem_zip_with member
  simp [of_fragments_kind heldLeft, of_fragments_kind heldRight]

theorem joined_shaped (shaped : t.Shaped) (left right : Nat) (separator : Char) :
    (t.joined left right separator).Shaped := by
  refine splice_shaped shaped left [right] fun row member => ?_
  obtain ⟨old, -, rfl⟩ := List.mem_map.mp member
  rfl

/-- A claim for several names hands out as many. -/
theorem claim_all_length (names : Text.Names) (hints : List String) :
    (names.claimAll hints).1.length = hints.length := by
  induction hints generalizing names with
  | nil => rfl
  | cons hint rest ih => simp [Text.Names.claimAll, ih]

theorem gather_shaped (shaped : t.Shaped) {melted : List Nat}
    (made : t.gather melted = .ok out) : out.Shaped := by
  obtain ⟨first, -, same, rfl⟩ := gather_eq_ok.mp made
  refine ⟨by simp [claim_all_length], ?_⟩
  intro row member
  obtain ⟨c, chosen, member⟩ := List.mem_flatMap.mp member
  obtain ⟨old, held, rfl⟩ := List.mem_map.mp member
  simp [shaped.kinds_pick held, shaped.kind_at held, same c chosen]

theorem spread_shaped (shaped : t.Shaped) {key value : Nat}
    (made : t.spread key value = .ok out) : out.Shaped := by
  obtain ⟨-, -, -, rows, grid, rfl⟩ := spread_eq_ok.mp made
  have placedRow {p : Placed} (member : p ∈ t.rows.map (place (t.others [key, value]) key)) :
      p.row ∈ t.rows := by
    obtain ⟨row, held, rfl⟩ := List.mem_map.mp member
    exact held
  -- Every cell read for a key comes from the value column of some row.
  have valueKinds {keys : List Placed} {g : Placed} {cells : List Cell}
      (read : List.Forall₂ (fun k cell => ∃ p,
        (t.rows.map (place (t.others [key, value]) key)).find?
          (fun p => p.group = g.group ∧ p.key = k.key) = some p ∧ p.row.at value = cell)
        keys cells) : cells.map Cell.kind = keys.map fun _ => t.kind value := by
    induction read with
    | nil => rfl
    | cons found rest ih =>
      obtain ⟨p, chosen, rfl⟩ := found
      rw [List.map_cons, List.map_cons, ih,
        shaped.kind_at (placedRow (List.mem_of_find?_eq_some chosen))]
  refine ⟨by simp [claim_all_length], ?_⟩
  intro row member
  obtain ⟨g, first, cells, read, rfl⟩ := forall₂_exists_left grid member
  rw [List.map_append, shaped.kinds_pick (placedRow (mem_firsts_by first)), valueKinds read]

theorem group_sum_shaped (shaped : t.Shaped) {groups : List Nat} {target : Option Nat}
    {f : Aggregate} (made : t.groupSum groups target f = .ok out) : out.Shaped := by
  obtain ⟨-, -, rfl⟩ := group_sum_eq_ok.mp made
  refine ⟨by simp, ?_⟩
  intro row member
  obtain ⟨first, held, rfl⟩ := List.mem_map.mp member
  simp [shaped.kinds_pick (mem_firsts_by held)]

end Table

/-- **Every step keeps the shape.** -/
theorem Step.apply_shaped {step : Step} {t out : Table} (shaped : t.Shaped)
    (ran : step.apply t = .ok out) : out.Shaped := by
  cases Step.applied_of_ok ran with
  | select _ _ made =>
    obtain ⟨-, rfl⟩ := Table.select_eq_ok.mp made
    exact Table.project_shaped shaped _
  | unite _ _ _ _ made =>
    obtain ⟨-, rfl⟩ := Table.unite_eq_ok.mp made
    refine Table.splice_shaped shaped _ _ fun row member => ?_
    obtain ⟨old, -, rfl⟩ := List.mem_map.mp member
    rfl
  | filter _ _ _ _ made =>
    obtain ⟨-, rfl⟩ := Table.filter_eq_ok.mp made
    exact ⟨shaped.typed, fun row member => shaped.filled row (List.mem_filter.mp member).1⟩
  | separate _ _ made =>
    obtain ⟨-, parts, -, rfl⟩ := Table.separate_eq_ok.mp made
    exact Table.split_column_shaped shaped _ parts
  | spread _ _ _ made => exact Table.spread_shaped shaped made
  | gather _ _ made => exact Table.gather_shaped shaped made
  | gatherNeg _ _ made => exact Table.gather_shaped shaped made
  | groupSum _ _ _ _ made => exact Table.group_sum_shaped shaped made
  | cumsum _ _ made =>
    obtain ⟨-, rfl⟩ := Table.cumsum_eq_ok.mp made
    refine Table.append_shaped shaped _ fun cell member => ?_
    obtain ⟨x, -, rfl⟩ := List.mem_map.mp member
    rfl
  | mutate _ _ _ _ made =>
    obtain ⟨-, rfl⟩ := Table.mutate_eq_ok.mp made
    refine Table.append_shaped shaped _ fun cell member => ?_
    obtain ⟨row, -, rfl⟩ := List.mem_map.mp member
    rfl
  | mutateCustom _ _ _ _ made =>
    obtain ⟨-, rfl⟩ := Table.mutate_custom_eq_ok.mp made
    refine Table.append_shaped shaped _ fun cell member => ?_
    obtain ⟨held, -, rfl⟩ := List.mem_map.mp member
    rfl

/-- What every step keeps holds of whatever has a value on inputs of which it
holds. -/
theorem eval_steps_keep {holds : Table → Prop}
    (kept : ∀ (step : Step) (t out : Table), holds t → step.apply t = .ok out → holds out)
    {inputs : List Table} (given : ∀ t ∈ inputs, holds t) {input : Nat} {steps : List Step}
    {value : Table} (ran : evalSteps inputs input steps = .ok value) : holds value := by
  induction steps generalizing value with
  | nil =>
    rw [evalSteps] at ran
    split at ran
    · rename_i held
      cases ran
      exact given _ (List.mem_of_getElem? held)
    · cases ran
  | cons step rest ih =>
    rw [evalSteps, bind_eq_ok] at ran
    obtain ⟨below, inner, applied⟩ := ran
    exact kept step below value (ih inner) applied

/-- Whatever has a value on shaped inputs has a shaped one. -/
theorem eval_steps_shaped {inputs : List Table} (shaped : ∀ t ∈ inputs, t.Shaped) {input : Nat}
    {steps : List Step} {value : Table} (ran : evalSteps inputs input steps = .ok value) :
    value.Shaped :=
  eval_steps_keep (fun _ _ _ => Step.apply_shaped) shaped ran

namespace Table

variable {required r : Table}

/-- How a requirement on the input of an operator is made from the one on its
output: it is left as it is, or some columns are left out, a column is cut in
two, two columns are joined, or the columns beside some are put below each
other. -/
inductive PushedBack (required : Table) : Table → Prop
  | untouched : PushedBack required required
  | without (columns : List Nat) : PushedBack required (required.without columns)
  | cut (column : Nat) {parts : List (List Char × List Char)}
      (size : parts.length = required.height) :
      PushedBack required (required.splitColumn column parts)
  | joined (left right : Nat) (separator : Char) :
      PushedBack required (required.joined left right separator)
  | molten {ids : List Nat} {first : Nat} (chosen : ids.Sublist required.positions)
      (head : (required.others ids).head? = some first)
      (same : ∀ c ∈ required.others ids, required.kind c = required.kind first) :
      PushedBack required (Table.dedup {
        columns := ids.map required.name ++
          [((Text.Names.reserving (ids.map required.name)).claim "VALUE").1]
        kinds := ids.map required.kind ++ [required.kind first]
        rows := required.rows.flatMap fun row =>
          (required.others ids).map fun c => row.pick ids ++ [row.at c] })

theorem ununited_pushed_back (member : r ∈ required.ununited) : required.PushedBack r := by
  obtain ⟨c, -, member⟩ := List.mem_flatMap.mp member
  have sized {parts : List (List Char × List Char)} {cut : List Char → Option _}
      (found : ((required.column c).map cellText).mapM cut = some parts) :
      parts.length = required.height := by
    rw [← (map_m_eq_some.mp found).length_eq, column, List.length_map, List.length_map, height]
  dsimp only at member
  split at member
  · rename_i firsts lasts cutFirst cutLast
    rcases List.mem_cons.mp member with rfl | member
    · exact .cut c (sized cutFirst)
    · split at member
      · cases member
      · rw [List.mem_singleton.mp member]
        exact .cut c (sized cutLast)
  · cases member

theorem unseparated_pushed_back (member : r ∈ required.unseparated) : required.PushedBack r := by
  obtain ⟨pair, -, member⟩ := List.mem_flatMap.mp member
  split at member
  · obtain ⟨separator, -, rfl⟩ := List.mem_map.mp member
    exact .joined _ _ separator
  · cases member

theorem molten_pushed_back {ids : List Nat} (chosen : ids.Sublist required.positions)
    (made : required.molten? ids = some r) : required.PushedBack r := by
  rw [molten?] at made
  split at made
  · cases made
  · rename_i first rest others
    split at made
    · cases made
    · rename_i same
      cases made
      rw [← others]
      refine .molten chosen (by rw [others]; rfl) fun c member => ?_
      rw [others] at member
      rcases List.mem_cons.mp member with rfl | later
      · rfl
      · by_contra other
        exact same (List.any_eq_true.mpr ⟨c, later, by simpa using other⟩)

end Table

/-- Every requirement on the input of an operator is made in one of these
ways. -/
theorem Operator.backward_pushed_back {op : Operator} {required r : Table} {outermost : Bool}
    (member : r ∈ op.backward required outermost) : required.PushedBack r := by
  have dropped {columns : List Nat}
      (member : r ∈ columns.map fun c => required.without [c]) : required.PushedBack r := by
    obtain ⟨c, -, rfl⟩ := List.mem_map.mp member
    exact .without [c]
  rcases List.mem_append.mp (mem_firsts_by member) with kept | undone
  · split at kept
    · rw [List.mem_singleton.mp kept]
      exact .untouched
    · cases kept
  · cases op with
    | select | filter =>
      rw [List.mem_singleton.mp undone]
      exact .untouched
    | unite => exact Table.ununited_pushed_back undone
    | separate =>
      rcases List.mem_append.mp undone with half | joined
      · exact dropped half
      · exact Table.unseparated_pushed_back joined
    | spread =>
      obtain ⟨k, -, member⟩ := List.mem_flatMap.mp undone
      obtain ⟨ids, chosen, made⟩ := List.mem_filterMap.mp member
      exact Table.molten_pushed_back (mem_choose_iff.mp chosen).1 made
    | gather | gatherNeg =>
      obtain ⟨pair, -, rfl⟩ := List.mem_map.mp undone
      exact .without pair
    | mutate | cumsum | groupSum | mutateCustom => exact dropped undone

/-- Every requirement on the input of an operator has the shape of a table when
the requirement on its output has. -/
theorem Operator.backward_shaped {op : Operator} {required r : Table} {outermost : Bool}
    (shaped : required.Shaped) (member : r ∈ op.backward required outermost) : r.Shaped := by
  cases Operator.backward_pushed_back member with
  | untouched => exact shaped
  | without columns => exact Table.without_shaped shaped columns
  | cut c size => exact Table.split_column_shaped shaped c _
  | joined left right separator => exact Table.joined_shaped shaped left right separator
  | molten chosen head same =>
    refine Table.dedup_shaped ⟨by simp, ?_⟩
    intro row member
    obtain ⟨old, held, member⟩ := List.mem_flatMap.mp member
    obtain ⟨c, beside, rfl⟩ := List.mem_map.mp member
    simp [shaped.kinds_pick held, shaped.kind_at held, same c beside]

end Reshape
