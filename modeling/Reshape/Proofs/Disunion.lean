import Reshape.Proofs.Replacement

/-! Cutting what was united. A requirement on a united column is handed down with
the column cut at the first joining character of its texts. If no text of the
left column had that character, the parts are the texts that were joined. They
are texts again as long as some part on each side is no number; a side of
numerals, however, is taken for a column of numbers, and texts are none. -/
namespace Reshape

open scoped List

namespace Table

variable {t out required : Table} {mapping : List Nat} {left right : Nat}

/-- The column of a united table that holds the joined texts: the column `right`
is gone, and the joined texts stand in the place of the column `left`. -/
def unitedAt (left right : Nat) : Nat := if right < left then left - 1 else left

/-- The column that a column of a table came from when the column `gone` was
left out. -/
def behind (gone d : Nat) : Nat := if d < gone then d else d + 1

/-- The columns other than one, in order. -/
theorem range_without {width gone : Nat} (inside : gone < width) :
    (List.range width).filter (· ≠ gone) = (List.range (width - 1)).map (behind gone) := by
  obtain ⟨after, rfl⟩ := Nat.exists_eq_add_of_lt inside
  have parts : List.range (gone + after + 1) =
      (List.range gone ++ [gone]) ++ (List.range after).map (gone + 1 + ·) := by
    rw [← List.range_succ, ← List.range_add, Nat.add_right_comm]
  have before : (List.range gone).map (behind gone) = List.range gone := by
    refine (List.map_congr_left fun d member => ?_).trans (List.map_id _)
    exact if_pos (List.mem_range.mp member)
  have later : ((List.range after).map (gone + ·)).map (behind gone) =
      (List.range after).map (gone + 1 + ·) := by
    rw [List.map_map]
    refine List.map_congr_left fun d _ => ?_
    rw [Function.comp_apply, behind, if_neg (by omega)]
    omega
  have kept : (List.range gone).filter (· ≠ gone) = List.range gone :=
    List.filter_eq_self.mpr fun c member => by
      simpa using (List.mem_range.mp member).ne
  have keptLater : ((List.range after).map (gone + 1 + ·)).filter (· ≠ gone) =
      (List.range after).map (gone + 1 + ·) := by
    refine List.filter_eq_self.mpr fun c member => ?_
    obtain ⟨d, -, rfl⟩ := List.mem_map.mp member
    exact decide_eq_true (by omega)
  have none : [gone].filter (· ≠ gone) = [] := by simp
  rw [parts, List.filter_append, List.filter_append, kept, keptLater, none, List.append_nil,
    Nat.add_sub_cancel, List.range_add, List.map_append, before, later]

/-- Leaving one column out and writing one entry in the place of another. -/
theorem splice_single {α : Type} {width place gone : Nat} (inside : gone < width)
    (other : place ≠ gone) (new : α) (old : Nat → α) :
    Reshape.splice width place [gone] [new] old = (List.range (width - 1)).map fun d =>
      if behind gone d = place then new else old (behind gone d) := by
  have each (l : List Nat) :
      (l.flatMap fun c => if c = place then [new] else if c ∈ [gone] then [] else [old c]) =
        (l.filter (· ≠ gone)).map fun c => if c = place then new else old c := by
    induction l with
    | nil => rfl
    | cons c rest ih =>
      rw [List.flatMap_cons, ih]
      by_cases left : c = gone
      · simp [left, other.symm]
      · by_cases here : c = place <;> simp [left, here, other]
  rw [Reshape.splice, each, range_without inside, List.map_map]
  rfl

theorem behind_eq_iff (other : left ≠ right) {d : Nat} :
    behind right d = left ↔ d = unitedAt left right := by
  rw [behind, unitedAt]
  split <;> split <;> omega

/-- The columns of a united table, other than the one that is joined, come from
the columns other than the two. -/
theorem columns_from_united (inside : right < t.width) :
    ColumnsFrom t ((List.range (t.width - 1)).filter (· ≠ unitedAt left right)) (behind right) := by
  refine ⟨fun d member => ?_, fun d _ e _ same => ?_⟩
  · have bound := List.mem_range.mp (List.mem_of_mem_filter member)
    rw [behind]
    split <;> omega
  · rw [behind, behind] at same
    split at same <;> split at same <;> omega

theorem behind_apart (other : left ≠ right) : ∀ d ∈ (List.range (t.width - 1)).filter
    (· ≠ unitedAt left right), behind right d ∉ [left, right] := by
  intro d member
  have notUnited : d ≠ unitedAt left right := by simpa using (List.mem_filter.mp member).2
  have notGone : behind right d ≠ right := by
    rw [behind]
    split <;> omega
  simpa using ⟨mt (behind_eq_iff other).mp notUnited, notGone⟩

/-- The joined text stands in its place, and all other columns stay. -/
theorem united_row (insideLeft : left < t.width) (insideRight : right < t.width)
    (other : left ≠ right) (cell : Cell) (held : Row) :
    let made : Row := Reshape.splice t.width left [right] [cell] held.at
    made.at (unitedAt left right) = cell ∧
      Stands ((List.range (t.width - 1)).filter (· ≠ unitedAt left right)) (behind right)
        made held := by
  intro made
  have shown {d : Nat} (bound : d < t.width - 1) :
      made.at d = if behind right d = left then cell else held.at (behind right d) := by
    simp only [made, splice_single insideRight other]
    simp [Row.at, bound]
  constructor
  · have bound : unitedAt left right < t.width - 1 := by
      rw [unitedAt]
      split <;> omega
    rw [shown bound, if_pos ((behind_eq_iff other).mpr rfl)]
  · intro d member
    have notLeft := behind_apart other d member
    rw [shown (List.mem_range.mp (List.mem_of_mem_filter member)),
      if_neg (List.ne_of_not_mem_cons notLeft)]

/-- The parts of a row's cell before and behind its first joining character. -/
abbrev parts (c : Nat) : Row → List Char × List Char := halves (· = Text.uniteSeparator) c

private theorem map_m_getD {α β : Type} {f : α → Option β} {l : List α} (default : β)
    (each : ∀ a ∈ l, ∃ b, f a = some b) :
    l.mapM f = some (l.map fun a => (f a).getD default) :=
  map_m_some fun a member => by
    obtain ⟨b, here⟩ := each a member
    rw [here, Option.getD_some]

/-- A text column with a joining character in every cell is cut at the first of
them. -/
theorem cut_mem_ununited {c : Nat} (inside : c < required.width) (texts : required.kind c = .text)
    (joined : ∀ row ∈ required.rows, Text.uniteSeparator ∈ cellText (row.at c)) :
    required.splitColumn c (required.rows.map (parts c)) ∈ required.ununited := by
  have each : ∀ text ∈ (required.column c).map cellText, Text.uniteSeparator ∈ text := by
    rw [column, List.map_map]
    exact List.forall_mem_map.mpr joined
  have firsts := map_m_getD (f := Text.splitFirst? (· = Text.uniteSeparator)) ([], [])
    fun text member => Text.exists_split_first (each text member) (by simp)
  have lasts := map_m_getD (f := Text.splitLast? (· = Text.uniteSeparator)) ([], [])
    fun text member => Text.exists_split_last (each text member) (by simp)
  refine List.mem_flatMap.mpr ⟨c, ?_, ?_⟩
  · exact List.mem_filter.mpr ⟨List.mem_range.mpr inside, by simpa using texts⟩
  · dsimp only
    rw [firsts, lasts, column, List.map_map, List.map_map]
    exact List.mem_cons_self

/-- The parts of a joined text are the texts that were joined, if the left one
has no joining character. -/
theorem parts_of_united {held row : Row} {c : Nat} (leftText : (held.at left).kind = .text)
    (rightText : (held.at right).kind = .text)
    (plain : Text.uniteSeparator ∉ cellText (held.at left))
    (agrees : (joinCells "_" (held.at left) (held.at right)).key = (row.at c).key) :
    Text.uniteSeparator ∈ cellText (row.at c) ∧
      .text (.ofList (parts c row).1) = held.at left ∧
      .text (.ofList (parts c row).2) = held.at right := by
  cases leftCell : held.at left with
  | number x => simp [leftCell] at leftText
  | boolean b => simp [leftCell] at leftText
  | text first =>
    cases rightCell : held.at right with
    | number x => simp [rightCell] at rightText
    | boolean b => simp [rightCell] at rightText
    | text second =>
      rw [leftCell, rightCell] at agrees
      have whole : cellText (row.at c) = first.toList ++ Text.uniteSeparator :: second.toList := by
        rw [Cell.eq_text_of_key agrees.symm]
        simp [cellText, Cell.text?, Cell.display, Text.uniteSeparator]
      have cut : Text.splitFirst? (· = Text.uniteSeparator) (cellText (row.at c)) =
          some (first.toList, second.toList) := by
        refine Text.split_first_eq_some_iff.mpr ⟨_, by simp, whole, fun other member => ?_⟩
        rw [leftCell] at plain
        exact decide_eq_false fun same => plain (same ▸ member)
      refine ⟨by simp [whole], ?_, ?_⟩
      · simp [parts, halves, cut]
      · simp [parts, halves, cut]

theorem kind_of_mem_text {cell : Cell} {c : Char} (member : c ∈ cellText cell) :
    cell.kind = .text := by
  cases cell with
  | text s => rfl
  | _ => simp [cellText, Cell.text?] at member

/-- On each side of the joining character, the part of some row is no number. -/
def Worded (required : Table) (c : Nat) : Prop :=
  (∃ row ∈ required.rows, Cell.fragmentNumber? (parts c row).1 = none) ∧
    ∃ row ∈ required.rows, Cell.fragmentNumber? (parts c row).2 = none

/-- A column that is worded is cut into columns of texts. -/
theorem cut_worded {c : Nat} (inside : c < required.width) (worded : Worded required c) :
    ∃ new : List (String × Kind), new.length = 2 ∧
      required.splitColumn c (required.rows.map (parts c)) =
        required.splice c [] new (required.rows.map fun row =>
          [.text (.ofList (parts c row).1), .text (.ofList (parts c row).2)]) := by
  obtain ⟨leftKind, rightKind, new, size, spliced⟩ := split_column_map inside (parts c)
  obtain ⟨⟨row, member, word⟩, row', member', word'⟩ := worded
  have left : (Cell.ofFragments (required.rows.map fun row => (parts c row).1)).1 = .text :=
    Cell.of_fragments_text (List.mem_map.mpr ⟨row, member, rfl⟩) word
  have right : (Cell.ofFragments (required.rows.map fun row => (parts c row).2)).1 = .text :=
    Cell.of_fragments_text (List.mem_map.mpr ⟨row', member', rfl⟩) word'
  rw [leftKind.trans left, rightKind.trans right] at spliced
  exact ⟨new, size, spliced⟩

/-- The cut at the first joining character is included below. -/
theorem cut_included {c : Nat} (shaped : t.Shaped) (insideLeft : left < t.width)
    (insideRight : right < t.width) (other : left ≠ right) (leftText : t.kind left = .text)
    (rightText : t.kind right = .text)
    (plain : ∀ row ∈ t.rows, Text.uniteSeparator ∉ cellText (row.at left))
    (made : t.unite left right "_" = .ok out) (found : Matches .included required out mapping)
    (inside : c < required.width) (sent : mapping.getD c 0 = unitedAt left right)
    (worded : Worded required c) :
    (required.splitColumn c (required.rows.map (parts c))).includedIn t = true ∧
      ∀ row ∈ required.rows, Text.uniteSeparator ∈ cellText (row.at c) := by
  obtain ⟨-, united⟩ := unite_eq_ok.mp made
  have rows := (congrArg Table.rows united).symm.trans (splice_rows t left [right] _ _)
  have width : out.width = t.width - 1 := by
    rw [← united, Table.width]
    simp [splice, splice_single insideRight other]
  have included := found.subperm
  rw [keys, keys, project, rows, List.map_map, List.map_map] at included
  obtain ⟨drawn, below, agree⟩ := drawn_of_subperm included
  have stay : ∀ k < required.width, k ≠ c → k ∉ [] → mapping.getD k 0 ∈
      (List.range (t.width - 1)).filter (· ≠ unitedAt left right) := by
    intro k bound notHere _
    have inOut := found.inRange _ (found.getD_mem bound)
    rw [width] at inOut
    exact List.mem_filter.mpr ⟨List.mem_range.mpr inOut,
      by simpa using found.getD_ne bound inside sent notHere⟩
  -- Row by row, what is required and what is below agree in all columns.
  have recovered : List.Forall₂ (fun row held => Text.uniteSeparator ∈ cellText (row.at c) ∧
      Row.key [.text (.ofList (parts c row).1), .text (.ofList (parts c row).2)] =
        (held.pick [left, right]).key ∧
      ∀ k < required.width, k ≠ c → k ∉ [] →
        (row.at k).key = (held.at (behind right (mapping.getD k 0))).key)
      required.rows drawn := by
    refine (forall₂_mem agree).imp fun row held => ?_
    rintro ⟨-, member, same⟩
    have inTable := below.subset member
    obtain ⟨joined, stands⟩ := united_row insideLeft insideRight other
      (joinCells "_" (held.at left) (held.at right)) held
    have agrees {k : Nat} (bound : k < required.width) :=
      key_at_of_agrees same.symm (found.total ▸ bound)
    have text := agrees inside
    rw [sent, joined] at text
    obtain ⟨joint, first, second⟩ := parts_of_united
      ((shaped.kind_at inTable left).trans leftText)
      ((shaped.kind_at inTable right).trans rightText) (plain held inTable) text
    refine ⟨joint, ?_, fun k bound notHere none => ?_⟩
    · rw [first, second]
      rfl
    · exact (agrees bound).symm.trans (stands _ (stay k bound notHere none)).symm
  constructor
  · obtain ⟨new, size, cut⟩ := cut_worded inside worded
    rw [cut]
    refine spliced_included found.total found.different (columns_from_united insideRight) stay
      (by simpa using other) ?_ (behind_apart other) size below
      (recovered.imp fun _ _ facts => facts.2)
    simpa using ⟨insideLeft, insideRight⟩
  · intro row wanted
    obtain ⟨held, -, facts⟩ := forall₂_exists_right recovered wanted
    exact facts.1

end Table

open Table

variable {t : Table} {left right : Nat}

/-- **Cutting undoes a union of words.** Below two text columns that are united,
the left one without a joining character, one of the requirements handed down is
included: whenever the requirement uses the united column, and on each side of
the first joining character some part that it requires there is no number. -/
theorem unite_covers_worded (shaped : t.Shaped) (insideLeft : left < t.width)
    (insideRight : right < t.width) (other : left ≠ right) (leftText : t.kind left = .text)
    (rightText : t.kind right = .text)
    (plain : ∀ row ∈ t.rows, Text.uniteSeparator ∉ cellText (row.at left)) :
    ∃ out, Step.apply ⟨.unite, [.column left, .column right, .constant (.text "_")]⟩ t = .ok out ∧
      ∀ (required : Table) (mapping : List Nat) (c : Nat) (outermost : Bool),
        required.Shaped → required.rows ≠ [] → Matches .included required out mapping →
        mapping[c]? = some (unitedAt left right) → Worded required c →
        ∃ r ∈ Operator.unite.backward required outermost, r.includedIn t = true := by
  obtain ⟨out, made⟩ : ∃ out, t.unite left right "_" = .ok out :=
    ⟨_, unite_eq_ok.mpr ⟨other, rfl⟩⟩
  have ran : Step.apply ⟨.unite, [.column left, .column right, .constant (.text "_")]⟩ t =
      .ok out :=
    bind_eq_ok.mpr ⟨left, Step.take_column_eq_ok.mpr ⟨rfl, insideLeft⟩,
      bind_eq_ok.mpr ⟨right, Step.take_column_eq_ok.mpr ⟨rfl, insideRight⟩,
        bind_eq_ok.mpr ⟨"_", Step.take_text_eq_ok.mpr rfl, map_error_eq_ok.mpr made⟩⟩⟩
  refine ⟨out, ran, ?_⟩
  intro required mapping c outermost shapedRequired rows found used worded
  obtain ⟨inside, sent⟩ := found.sends used
  obtain ⟨included, joined⟩ := cut_included shaped insideLeft insideRight other leftText rightText
    plain made found inside sent worded
  obtain ⟨row, wanted⟩ := List.exists_mem_of_ne_nil _ rows
  have texts : required.kind c = .text := by
    rw [← shapedRequired.kind_at wanted]
    exact kind_of_mem_text (joined row wanted)
  exact Operator.backward_of_undone (cut_mem_ununited inside texts joined) included

namespace Disunion

/-- Two columns of texts, some of them numerals, and one of numbers. -/
def names : Table where
  columns := ["first", "age", "last"]
  kinds := [.text, .number, .text]
  rows := [[.text "a", .number 1, .text "x_y"], [.text "7", .number 2, .text "8"]]

/-- The names joined, in another order. -/
def named : Table := ⟨["name"], [.text], [[.text "7_8"], [.text "a_x_y"]]⟩

/-- Two texts, the left one a numeral. -/
def numbered : Table := ⟨["a", "b"], [.text, .text], [[.text "1", .text "p"]]⟩

/-- The texts joined. -/
def labelled : Table := ⟨["k"], [.text], [[.text "1_p"]]⟩

end Disunion

open Disunion in
theorem unite_covers_worded_names :
    ∃ out, Step.apply ⟨.unite, [.column 0, .column 2, .constant (.text "_")]⟩ names = .ok out ∧
      Table.align .included named out = some [0] ∧
      ∃ r ∈ Operator.unite.backward named true, r.includedIn names = true := by
  have shaped : names.Shaped := ⟨rfl, by simp [names]⟩
  have shapedRequired : named.Shaped := ⟨rfl, by simp [named]⟩
  have plain : ∀ row ∈ names.rows, Text.uniteSeparator ∉ cellText (row.at 0) := by decide +kernel
  obtain ⟨out, ran, covers⟩ := unite_covers_worded shaped (by decide) (by decide)
    (Nat.zero_ne_add_one 1) rfl rfl plain
  have value : (Step.apply ⟨.unite, [.column 0, .column 2, .constant (.text "_")]⟩ names).map
      (Table.align .included named) = .ok (some [0]) := by
    decide +kernel
  rw [ran] at value
  have aligned : Table.align .included named out = some [0] := Except.ok.inj value
  have worded : Worded named 0 := by
    rw [Worded]
    decide +kernel
  exact ⟨out, ran, aligned, covers named [0] 0 true shapedRequired (by decide)
    (align_some aligned).1 rfl worded⟩

open Disunion in
/-- The exception is there. A numeral that was a text becomes a number. -/
theorem unite_misses_numeral :
    numbered.WellFormed ∧ numbered.kind 0 = .text ∧ numbered.kind 1 = .text ∧
      (∀ row ∈ numbered.rows, Text.uniteSeparator ∉ cellText (row.at 0)) ∧
      ∃ out, Step.apply ⟨.unite, [.column 0, .column 1, .constant (.text "_")]⟩ numbered =
          .ok out ∧ labelled.rows ≠ [] ∧ Matches .included labelled out [unitedAt 0 1] ∧
        ∀ outermost : Bool, ∀ r ∈ Operator.unite.backward labelled outermost,
          r.includedIn numbered = false := by
  have wellFormed : numbered.WellFormed := ⟨by decide, rfl, by simp [numbered]⟩
  have value : (Step.apply ⟨.unite, [.column 0, .column 1, .constant (.text "_")]⟩ numbered).map
      (Table.align .included labelled) = .ok (some [0]) := by
    decide +kernel
  obtain ⟨out, ran, aligned⟩ := map_eq_ok.mp value
  exact ⟨wellFormed, rfl, rfl, by decide +kernel, out, ran, by decide, (align_some aligned).1,
    by decide +kernel⟩

end Reshape
