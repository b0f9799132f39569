import Mathlib.Data.Bool.AllAny
import Reshape.Proofs.Disunion
import Reshape.Proofs.Reunion

/-! Separating inverts uniting. The joined texts stand in the place of the left
column, which the columns in front of it may have moved, and a separator is found
first where they were joined if the left texts have none. So the halves are the
texts that were joined, whatever the right ones hold. What does not come back is
their kind: a side of numerals is read as numbers. -/
namespace Reshape

namespace Table

variable {t out : Table} {left right c : Nat}

section Order

variable {α β : Type}

/-- The columns of a table with the column `right` moved right behind the column
`left`. -/
def broughtBehind (t : Table) (left right : Nat) : List Nat :=
  (t.others [right]).flatMap fun c => if c = left then [left, right] else [c]

/-- Writing in the place of one column and leaving another out goes through the
columns other than that. -/
theorem splice_others (t : Table) (other : left ≠ right) (new : List α) (old : Nat → α) :
    Reshape.splice t.width left [right] new old =
      (t.others [right]).flatMap fun c => if c = left then new else [old c] := by
  rw [Reshape.splice, others, positions]
  induction List.range t.width with
  | nil => rfl
  | cons c rest ih =>
    rw [List.flatMap_cons, ih]
    by_cases gone : c = right
    · simp [gone, other.symm]
    · by_cases here : c = left <;> simp [gone, here, other]

/-- What is written in the place of the united column could have been written in
the place of the left one at once. -/
theorem splice_again (insideRight : right < t.width) (other : left ≠ right) (joined default : α)
    (new : List α) (old : Nat → α) :
    Reshape.splice (t.width - 1) (unitedAt left right) [] new
        ((Reshape.splice t.width left [right] [joined] old).getD · default) =
      Reshape.splice t.width left [right] new old := by
  have columns : t.others [right] = (List.range (t.width - 1)).map (behind right) := by
    rw [← range_without insideRight, others, positions]
    simp
  rw [splice_single insideRight other, splice_others t other, columns, List.flatMap_map,
    Reshape.splice]
  refine List.flatMap_congr fun d member => ?_
  have bound := List.mem_range.mp member
  by_cases here : behind right d = left
  · rw [if_pos ((behind_eq_iff other).mp here), if_pos here]
  · rw [if_neg (mt (behind_eq_iff other).mpr here), if_neg here, if_neg List.not_mem_nil]
    simp [bound, here]

/-- Reading the columns in their new order. -/
theorem map_brought_behind (t : Table) (other : left ≠ right) (f : Nat → β) :
    (t.broughtBehind left right).map f =
      Reshape.splice t.width left [right] [f left, f right] f := by
  rw [splice_others t other, broughtBehind, List.map_flatMap]
  refine List.flatMap_congr fun c _ => ?_
  split_ifs <;> rfl

end Order

/-- The characters of the texts in a column. -/
def texts (t : Table) (c : Nat) : List (List Char) := (t.column c).map cellText

/-- The table with the texts of a column read as fragments. -/
def reread (t : Table) (c : Nat) : Table :=
  let fragments := Cell.ofFragments (t.texts c)
  { t with
    kinds := t.kinds.set c fragments.1
    rows := List.zipWith (fun row cell => row.set c cell) t.rows fragments.2 }

/-- The kind that the texts of a column have as fragments. -/
def rereadKind (t : Table) (c : Nat) : Kind := (Cell.ofFragments (t.texts c)).1

theorem reread_rows (t : Table) (c : Nat) : (t.reread c).rows =
    t.rows.map fun row => row.set c (Cell.fragmentAs (t.rereadKind c) (cellText (row.at c))) := by
  rw [rereadKind, texts, column, List.map_map]
  simp only [reread, Cell.of_fragments_cells, texts, column, List.map_map,
    List.zipWith_map_right, List.zipWith_self]
  rfl

theorem texts_reread (other : left ≠ right) : (t.reread left).texts right = t.texts right := by
  simp only [texts, column, reread_rows, List.map_map]
  refine List.map_congr_left fun row _ => congrArg cellText ?_
  simp [Row.at, List.getElem?_set_ne other]

theorem reread_kind_after (other : left ≠ right) :
    (t.reread left).rereadKind right = t.rereadKind right := by
  rw [rereadKind, texts_reread other, rereadKind]

/-- The rows of a table with two columns read again. -/
theorem reread_twice_rows (other : left ≠ right) : ((t.reread left).reread right).rows =
    t.rows.map fun row =>
      (row.set left (Cell.fragmentAs (t.rereadKind left) (cellText (row.at left)))).set right
        (Cell.fragmentAs (t.rereadKind right) (cellText (row.at right))) := by
  rw [reread_rows, reread_rows, List.map_map, reread_kind_after other]
  refine List.map_congr_left fun row _ => ?_
  simp [Row.at, List.getElem?_set_ne other]

/-- Whether a column has a text that is no finite number, blanks around it aside. -/
def Wordy (t : Table) (c : Nat) : Prop :=
  ∃ row ∈ t.rows, Cell.fragmentNumber? (cellText (row.at c)) = none

theorem reread_kind_text (plain : t.rows = [] ∨ t.Wordy c) : t.rereadKind c = .text := by
  rcases plain with empty | ⟨row, held, word⟩
  · simp [rereadKind, texts, column, empty, Cell.ofFragments]
  · exact Cell.of_fragments_text
      (List.mem_map.mpr ⟨_, List.mem_map_of_mem held, rfl⟩) word

/-- A text cell holds its text. -/
theorem text_of_kind {cell : Cell} (text : cell.kind = .text) :
    cell = .text (.ofList (cellText cell)) := by
  cases cell with
  | text s => simp [cellText, Cell.text?]
  | number x => cases text
  | boolean b => cases text

/-- Reading a text column again changes nothing if it has no rows, or a word. -/
theorem reread_words (shaped : t.Shaped) (inside : c < t.width) (text : t.kind c = .text)
    (plain : t.rows = [] ∨ t.Wordy c) : t.reread c = t := by
  have kind := reread_kind_text plain
  have insideKinds : c < t.kinds.length := shaped.typed ▸ inside
  have kinds : t.kinds.set c (Cell.ofFragments (t.texts c)).1 = t.kinds := by
    have held : t.kinds[c] = .text := by
      rw [← text, Table.kind, List.getD_eq_getElem _ _ insideKinds]
    change t.kinds.set c (t.rereadKind c) = t.kinds
    rw [kind, ← held, List.set_getElem_self]
  have rows : (t.reread c).rows = t.rows := by
    rw [reread_rows, kind]
    refine (List.map_congr_left fun row held => ?_).trans (List.map_id _)
    have bound : c < row.length := shaped.row_length held ▸ inside
    have cell : row[c] = .text (.ofList (cellText (row.at c))) := by
      rw [← text_of_kind ((shaped.kind_at held c).trans text), Row.at,
        List.getD_eq_getElem _ _ bound]
    rw [Cell.fragmentAs, if_neg (by decide), ← cell, List.set_getElem_self]
    rfl
  exact (Table.mk.injEq ..).mpr ⟨rfl, kinds, rows⟩

/-- The first separator of a joined text is the one that joins, if the left text
has none. -/
theorem sides_of_joined {first second : Cell} (leftText : first.kind = .text)
    (rightText : second.kind = .text) (plain : ∀ c ∈ cellText first, c ∉ Text.separators) :
    (cellText (joinCells "_" first second)).find? (· ∈ Text.separators) = some '_' ∧
      Text.splitFirst? (· ∈ Text.separators) (cellText (joinCells "_" first second)) =
        some (cellText first, cellText second) := by
  have whole : cellText (joinCells "_" first second) =
      cellText first ++ '_' :: cellText second := by
    rw [text_of_kind leftText, text_of_kind rightText]
    simp [joinCells, cellText, Cell.text?, Cell.display]
  have before : ∀ c ∈ cellText first, decide (c ∈ Text.separators) = false :=
    fun c member => decide_eq_false (plain c member)
  constructor
  · exact List.find?_eq_some_iff_append.mpr
      ⟨by decide, _, _, whole, fun c member => by simpa using plain c member⟩
  · exact Text.split_first_eq_some_iff.mpr ⟨'_', by decide, whole, before⟩

/-- A row of a united table is cut into the texts that were joined. -/
theorem sides_of_united (insideLeft : left < t.width) (insideRight : right < t.width)
    (other : left ≠ right) {row : Row} (leftText : (row.at left).kind = .text)
    (rightText : (row.at right).kind = .text)
    (plain : ∀ c ∈ cellText (row.at left), c ∉ Text.separators) :
    let joined : Row := Reshape.splice t.width left [right]
      [joinCells "_" (row.at left) (row.at right)] row.at
    (cellText (joined.at (unitedAt left right))).find? (· ∈ Text.separators) = some '_' ∧
      sides (unitedAt left right) joined = (cellText (row.at left), cellText (row.at right)) := by
  intro joined
  obtain ⟨separated, cut⟩ := sides_of_joined leftText rightText plain
  have here : joined.at (unitedAt left right) = joinCells "_" (row.at left) (row.at right) :=
    (united_row insideLeft insideRight other _ row).1
  exact ⟨here ▸ separated, by rw [sides, halves, here, cut, Option.getD_some]⟩

/-- What uniting makes of two columns. -/
structure United (t : Table) (left right : Nat) (united : Table) : Prop where
  kinds : united.kinds = Reshape.splice t.width left [right] [.text] t.kind
  rows : united.rows = t.rows.map fun row =>
    Reshape.splice t.width left [right] [joinCells "_" (row.at left) (row.at right)] row.at
  names : ∃ joined, united.columns = Reshape.splice t.width left [right] [joined] t.name

theorem unite_eq_united (other : left ≠ right) :
    ∃ united, t.unite left right "_" = .ok united ∧ United t left right united :=
  ⟨_, unite_eq_ok.mpr ⟨other, rfl⟩, rfl, splice_rows t left [right] _ _, _, rfl⟩

namespace United

variable {united : Table} (made : United t left right united)
include made

theorem width (insideRight : right < t.width) (other : left ≠ right) :
    united.width = t.width - 1 := by
  obtain ⟨joined, names⟩ := made.names
  rw [Table.width, names, splice_single insideRight other, List.length_map, List.length_range]

/-- The united column holds texts. -/
theorem kind_at (insideLeft : left < t.width) (insideRight : right < t.width)
    (other : left ≠ right) : united.kind (unitedAt left right) = .text := by
  have bound : unitedAt left right < t.width - 1 := by
    rw [unitedAt]
    split <;> omega
  rw [Table.kind, made.kinds, splice_single insideRight other]
  simp [bound, (behind_eq_iff other).mpr rfl]

variable (shaped : t.Shaped) (insideLeft : left < t.width) (insideRight : right < t.width)
    (other : left ≠ right) (leftText : t.kind left = .text) (rightText : t.kind right = .text)
    (plain : ∀ row ∈ t.rows, ∀ c ∈ cellText (row.at left), c ∉ Text.separators)
include shaped insideLeft insideRight other leftText rightText plain

/-- The united column can be separated, and its halves are the texts of the two
columns read as fragments. -/
theorem separate_eq : ∃ out, united.separate (unitedAt left right) = .ok out ∧
    (∃ first second,
      out.columns = Reshape.splice t.width left [right] [first, second] t.name) ∧
    out.kinds =
      Reshape.splice t.width left [right] [t.rereadKind left, t.rereadKind right] t.kind ∧
    out.rows = t.rows.map fun row => Reshape.splice t.width left [right]
      [Cell.fragmentAs (t.rereadKind left) (cellText (row.at left)),
        Cell.fragmentAs (t.rereadKind right) (cellText (row.at right))] row.at := by
  have sides_eq {row : Row} (held : row ∈ t.rows) :=
    sides_of_united insideLeft insideRight other ((shaped.kind_at held left).trans leftText)
      ((shaped.kind_at held right).trans rightText) (plain row held)
  have separated : ∀ row ∈ united.rows,
      (cellText (row.at (unitedAt left right))).find? (· ∈ Text.separators) = some '_' := by
    rw [made.rows]
    exact List.forall_mem_map.mpr fun row held => (sides_eq held).1
  have leftTexts : united.rows.map (fun row => (sides (unitedAt left right) row).1) =
      t.texts left := by
    rw [made.rows, List.map_map, texts, column, List.map_map]
    exact List.map_congr_left fun row held => congrArg Prod.fst (sides_eq held).2
  have rightTexts : united.rows.map (fun row => (sides (unitedAt left right) row).2) =
      t.texts right := by
    rw [made.rows, List.map_map, texts, column, List.map_map]
    exact List.map_congr_left fun row held => congrArg Prod.snd (sides_eq held).2
  have width := made.width insideRight other
  have named (first second : String) :
      Reshape.splice united.width (unitedAt left right) [] [first, second] united.name =
        Reshape.splice t.width left [right] [first, second] t.name := by
    obtain ⟨joined, names⟩ := made.names
    have name : united.name =
        ((Reshape.splice t.width left [right] [joined] t.name).getD · "") :=
      funext fun c => by rw [Table.name, names]
    rw [width, name]
    exact splice_again insideRight other joined "" _ t.name
  refine ⟨_, separate_sides (made.kind_at insideLeft insideRight other) separated, ?_⟩
  rw [split_column_rows, leftTexts, rightTexts]
  refine ⟨⟨_, _, named _ _⟩, ?_, ?_⟩
  · have kind : united.kind =
        ((Reshape.splice t.width left [right] [.text] t.kind).getD · .text) :=
      funext fun c => by rw [Table.kind, made.kinds]
    rw [splice, width, kind]
    exact splice_again insideRight other .text .text _ t.kind
  · refine (splice_rows united _ [] _ _).trans ?_
    rw [made.rows, List.map_map, width]
    refine List.map_congr_left fun row held => ?_
    rw [Function.comp_apply, (sides_eq held).2]
    exact splice_again insideRight other _ default _ row.at

end United

/-- The rows and kinds of a table with two columns read again and the right one
brought behind the left. -/
theorem reread_brought_behind (shaped : t.Shaped) (insideLeft : left < t.width)
    (insideRight : right < t.width) (other : left ≠ right) :
    let moved := ((t.reread left).reread right).project (t.broughtBehind left right)
    moved.kinds =
        Reshape.splice t.width left [right] [t.rereadKind left, t.rereadKind right] t.kind ∧
      moved.rows = t.rows.map fun row => Reshape.splice t.width left [right]
        [Cell.fragmentAs (t.rereadKind left) (cellText (row.at left)),
          Cell.fragmentAs (t.rereadKind right) (cellText (row.at right))] row.at := by
  have insideKinds : left < t.kinds.length ∧ right < t.kinds.length := by
    rw [shaped.typed]
    exact ⟨insideLeft, insideRight⟩
  constructor
  · have kinds : ((t.reread left).reread right).kinds =
        (t.kinds.set left (t.rereadKind left)).set right (t.rereadKind right) := by
      rw [← reread_kind_after other]
      rfl
    refine (map_brought_behind t other _).trans
      (splice_congr ?_ fun c _ notLeft notRight => ?_)
    · simp [Table.kind, kinds, insideKinds, other.symm]
    · have apart : c ≠ right := by simpa using notRight
      simp [Table.kind, kinds, notLeft.symm, apart.symm]
  · rw [project, reread_twice_rows other, List.map_map]
    refine List.map_congr_left fun row held => ?_
    have bounds : left < row.length ∧ right < row.length := by
      rw [shaped.row_length held]
      exact ⟨insideLeft, insideRight⟩
    rw [Function.comp_apply, Row.pick, map_brought_behind t other]
    refine splice_congr ?_ fun c _ notLeft notRight => ?_
    · simp [Row.at, bounds, other.symm]
    · have apart : c ≠ right := by simpa using notRight
      simp [Row.at, notLeft.symm, apart.symm]

/-- **Separating inverts uniting.** Two text columns, the left one without a
separator, can be united and the united column separated. The result has the rows
and kinds of the table with the right column brought right behind the left and the
texts of both read as fragments; only these two columns get new names. Where there
are no rows, or a word in each of the two columns, nothing but the order has
changed. -/
theorem separate_of_unite (ok : t.WellFormed) (insideLeft : left < t.width)
    (insideRight : right < t.width) (other : left ≠ right) (leftText : t.kind left = .text)
    (rightText : t.kind right = .text)
    (plain : ∀ row ∈ t.rows, ∀ c ∈ cellText (row.at left), c ∉ Text.separators) :
    let moved := t.project (t.broughtBehind left right)
    let parsed := ((t.reread left).reread right).project (t.broughtBehind left right)
    ∃ united out,
      Step.apply ⟨.unite, [.column left, .column right, .constant (.text "_")]⟩ t = .ok united ∧
      Step.apply ⟨.separate, [.column (unitedAt left right)]⟩ united = .ok out ∧
      (∃ first second, out.columns = (t.others [right]).flatMap fun c =>
        if c = left then [first, second] else [t.name c]) ∧
      (out.kinds = parsed.kinds ∧ out.rows = parsed.rows) ∧
      (t.rows = [] ∨ t.Wordy left ∧ t.Wordy right →
        out.kinds = moved.kinds ∧ out.rows = moved.rows) := by
  intro moved parsed
  obtain ⟨united, unites, made⟩ := unite_eq_united (t := t) other
  obtain ⟨out, separates, ⟨first, second, names⟩, outKinds, outRows⟩ := made.separate_eq ok.shaped
    insideLeft insideRight other leftText rightText plain
  obtain ⟨kinds, rows⟩ := reread_brought_behind ok.shaped insideLeft insideRight other
  have insideUnited : unitedAt left right < united.width := by
    rw [made.width insideRight other, unitedAt]
    split <;> omega
  have same : out.kinds = parsed.kinds ∧ out.rows = parsed.rows :=
    ⟨outKinds.trans kinds.symm, outRows.trans rows.symm⟩
  refine ⟨united, out, Step.ok_of_applied (.unite rfl
      (Step.take_column_eq_ok.mpr ⟨rfl, insideLeft⟩)
      (Step.take_column_eq_ok.mpr ⟨rfl, insideRight⟩) (Step.take_text_eq_ok.mpr rfl) unites),
    Step.ok_of_applied (.separate rfl (Step.take_column_eq_ok.mpr ⟨rfl, insideUnited⟩) separates),
    ⟨first, second, names.trans (splice_others t other _ _)⟩, same, fun words => ?_⟩
  have rereadLeft : t.reread left = t :=
    reread_words ok.shaped insideLeft leftText (words.imp_right And.left)
  have rereadRight : t.reread right = t :=
    reread_words ok.shaped insideRight rightText (words.imp_right And.right)
  have unchanged : parsed = moved := by
    simp only [parsed, moved, rereadLeft, rereadRight]
  exact unchanged ▸ same

namespace Halves

/-- Months that stand in front of their years, one of them missing. -/
def dates : Table where
  columns := ["month", "id", "year"]
  kinds := [.text, .number, .text]
  rows := [[.text "may-june", .number 1, .text "2019"], [.text "", .number 2, .text "n.d."]]

end Halves

open Halves in
/-- Years and months, united and separated, come back in that order. -/
theorem separate_of_unite_dates : ∃ united out,
    Step.apply ⟨.unite, [.column 2, .column 0, .constant (.text "_")]⟩ dates = .ok united ∧
    Step.apply ⟨.separate, [.column 1]⟩ united = .ok out ∧
    out.rows = (dates.project [1, 2, 0]).rows := by
  have ok : dates.WellFormed := ⟨by decide, rfl, by decide⟩
  have plain : ∀ row ∈ dates.rows, ∀ c ∈ cellText (row.at 2), c ∉ Text.separators := by
    simp only [← List.all_iff_forall_prop]
    decide +kernel
  have words : dates.Wordy 2 ∧ dates.Wordy 0 := by
    rw [Wordy, Wordy]
    decide +kernel
  obtain ⟨united, out, unites, separates, -, -, back⟩ :=
    @separate_of_unite dates 2 0 ok (by decide) (by decide) (by decide) rfl rfl plain
  exact ⟨united, out, unites, separates, (back (.inr words)).2⟩

end Table
end Reshape
