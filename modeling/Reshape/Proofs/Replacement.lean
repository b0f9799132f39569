import Reshape.Proofs.NewValues
import Reshape.Proofs.Requirements
import Reshape.Proofs.RowSources

/-! Columns in the place of others. A join or a split of columns leaves all other
columns as they are. So if a requirement is included in the value of one of them,
and the other puts back the cells that stood below, row by row, then what it
makes of the requirement is included below. -/
namespace Reshape

open scoped List

namespace Text

/-- A text is cut at the first character with the property. -/
theorem split_first_eq_some_iff {p : Char → Bool} {text left right : List Char} :
    splitFirst? p text = some (left, right) ↔
      ∃ c, p c = true ∧ text = left ++ c :: right ∧ ∀ other ∈ left, p other = false := by
  induction text generalizing left with
  | nil => simp [splitFirst?]
  | cons first rest ih =>
    rw [splitFirst?]
    by_cases here : p first = true
    · rw [if_pos here]
      constructor
      · rintro ⟨⟩
        exact ⟨first, here, rfl, nofun⟩
      · rintro ⟨c, holds, whole, before⟩
        cases left with
        | nil =>
          cases whole
          rfl
        | cons other left =>
          cases whole
          simp [before first List.mem_cons_self] at here
    · rw [if_neg here, Option.map_eq_some_iff]
      constructor
      · rintro ⟨⟨left', right'⟩, cut, same⟩
        cases same
        obtain ⟨c, holds, rfl, before⟩ := ih.mp cut
        exact ⟨c, holds, rfl, List.forall_mem_cons.mpr ⟨by simpa using here, before⟩⟩
      · rintro ⟨c, holds, whole, before⟩
        cases left with
        | nil =>
          cases whole
          exact absurd holds here
        | cons other left =>
          cases whole
          exact ⟨(left, right), ih.mpr ⟨c, holds, rfl, (List.forall_mem_cons.mp before).2⟩, rfl⟩

/-- A text with such a character can be cut. -/
theorem exists_split_first {p : Char → Bool} {text : List Char} {c : Char} (member : c ∈ text)
    (holds : p c = true) : ∃ parts, splitFirst? p text = some parts := by
  cases found : text.find? p with
  | none => exact absurd holds (List.find?_eq_none.mp found c member)
  | some c =>
    obtain ⟨holds, left, right, rfl, before⟩ := List.find?_eq_some_iff_append.mp found
    exact ⟨(left, right), split_first_eq_some_iff.mpr ⟨c, holds, rfl, by simpa using before⟩⟩

/-- A text with such a character can be cut at the last one. -/
theorem exists_split_last {p : Char → Bool} {text : List Char} {c : Char} (member : c ∈ text)
    (holds : p c = true) : ∃ parts, splitLast? p text = some parts := by
  obtain ⟨⟨right, left⟩, cut⟩ := exists_split_first (List.mem_reverse.mpr member) holds
  exact ⟨(left.reverse, right.reverse), by rw [splitLast?, cut]; rfl⟩

end Text

namespace Cell

/-- A fragment as a cell in a column of fragments of this kind. -/
def fragmentAs (kind : Kind) (fragment : List Char) : Cell :=
  if kind = .number then ofFragment fragment else .text (.ofList fragment)

theorem of_fragments_cells (fragments : List (List Char)) :
    (ofFragments fragments).2 = fragments.map (fragmentAs (ofFragments fragments).1) := by
  rw [ofFragments]
  split
  · exact List.map_congr_left fun _ _ => (if_pos rfl).symm
  · exact List.map_congr_left fun _ _ => (if_neg Kind.noConfusion).symm

theorem of_fragments_length (fragments : List (List Char)) :
    (ofFragments fragments).2.length = fragments.length := by
  rw [of_fragments_cells, List.length_map]

/-- One fragment that is no number makes a column of texts. -/
theorem of_fragments_text {fragments : List (List Char)} {fragment : List Char}
    (member : fragment ∈ fragments) (words : fragmentNumber? fragment = none) :
    (ofFragments fragments).1 = .text := by
  rw [ofFragments, if_neg]
  rintro ⟨-, numbers⟩
  simpa [words] using List.all_eq_true.mp numbers fragment member

end Cell

section Splice

variable {α : Type} {width place : Nat} {gone : List Nat} {new : List α} {old : Nat → α}

theorem splice_congr {new' : List α} {old' : Nat → α} (added : new = new')
    (kept : ∀ c < width, c ≠ place → c ∉ gone → old c = old' c) :
    splice width place gone new old = splice width place gone new' old' := by
  refine List.flatMap_congr fun c member => ?_
  split_ifs with here left
  · exact added
  · rfl
  · rw [kept c (List.mem_range.mp member) here left]

theorem splice_length {β : Type} {new' : List β} {old' : Nat → β}
    (same : new.length = new'.length) :
    (splice width place gone new old).length = (splice width place gone new' old').length := by
  simp only [splice, List.length_flatMap]
  congr 2
  funext c
  split_ifs
  · exact same
  · rfl
  · rfl

/-- Entries are different when the new ones are, the old ones that stay are, and
none of these is among the new ones. -/
theorem splice_nodup (different : new.Nodup)
    (apart : ∀ c < width, c ≠ place → c ∉ gone → old c ∉ new)
    (injective : ∀ c < width, c ≠ place → c ∉ gone → ∀ d < width, d ≠ place → d ∉ gone →
      old c = old d → c = d) : (splice width place gone new old).Nodup := by
  refine List.nodup_flatMap.mpr ⟨fun c _ => ?_, ?_⟩
  · split_ifs
    · exact different
    · exact List.nodup_nil
    · exact List.nodup_singleton _
  · refine List.nodup_range.pairwise_of_forall_ne fun c left d right other => ?_
    rw [List.mem_range] at left right
    refine List.disjoint_left.mpr fun a member member' => ?_
    rcases mem_spliced_at member with ⟨rfl, added⟩ | ⟨notHere, stays, rfl⟩
    · rcases mem_spliced_at member' with ⟨rfl, -⟩ | ⟨notHere', stays', rfl⟩
      · exact other rfl
      · exact apart d right notHere' stays' added
    · rcases mem_spliced_at member' with ⟨rfl, added⟩ | ⟨notHere', stays', same⟩
      · exact apart c left notHere stays added
      · exact other (injective c left notHere stays d right notHere' stays' same)

end Splice

theorem zip_map_self {α β : Type} (f : α → β) (l : List α) :
    l.zip (l.map f) = l.map fun a => (a, f a) := by
  rw [List.zip_map_right, List.zip_eq_zipWith, List.zipWith_self, List.map_map]
  rfl

namespace Table

/-- The parts of a row's cell before and behind the first character with a
property. -/
def halves (p : Char → Bool) (c : Nat) (row : Row) : List Char × List Char :=
  (Text.splitFirst? p (cellText (row.at c))).getD ([], [])

/-- A cell consists of its halves and the character between them. -/
theorem halves_eq {p : Char → Bool} {c : Nat} {row : Row} {joint : Char}
    (first : (cellText (row.at c)).find? p = some joint) :
    Text.splitFirst? p (cellText (row.at c)) = some (halves p c row) ∧
      cellText (row.at c) = (halves p c row).1 ++ joint :: (halves p c row).2 := by
  obtain ⟨holds, left, right, whole, before⟩ := List.find?_eq_some_iff_append.mp first
  have cut : Text.splitFirst? p (cellText (row.at c)) = some (left, right) :=
    Text.split_first_eq_some_iff.mpr ⟨joint, holds, whole, by simpa using before⟩
  rw [halves, cut]
  exact ⟨rfl, whole⟩

variable {t out required : Table} {mapping stays : List Nat} {source : Nat → Nat}

theorem splice_rows (t : Table) (place : Nat) (gone : List Nat) (new : List (String × Kind))
    (cells : Row → Row) : (t.splice place gone new (t.rows.map cells)).rows =
      t.rows.map fun row => Reshape.splice t.width place gone (cells row) row.at := by
  simp [splice, List.zipWith_map_right, List.zipWith_self]

/-- Splitting a column row by row puts the fragments of each row in the place of
its cell, as cells of the kinds that the halves get. -/
theorem split_column_rows (t : Table) (column : Nat) (cut : Row → List Char × List Char) :
    let leftKind := (Cell.ofFragments (t.rows.map fun row => (cut row).1)).1
    let rightKind := (Cell.ofFragments (t.rows.map fun row => (cut row).2)).1
    let leftName := (Text.Names.reserving t.columns).claim (t.name column ++ "1")
    let rightName := leftName.2.claim (t.name column ++ "2")
    t.splitColumn column (t.rows.map cut) =
      t.splice column [] [(leftName.1, leftKind), (rightName.1, rightKind)]
        (t.rows.map fun row =>
          [Cell.fragmentAs leftKind (cut row).1, Cell.fragmentAs rightKind (cut row).2]) := by
  intro leftKind rightKind leftName rightName
  rw [split_column_eq, List.map_map, List.map_map]
  refine congrArg (t.splice column [] _) ?_
  simp only [Cell.of_fragments_cells, List.map_map, List.zipWith_map, List.zipWith_self,
    Function.comp_apply]
  rfl

/-- The halves have the kinds of their fragments, wherever their names come
from. -/
theorem split_column_map {column : Nat} (inside : column < t.width)
    (cut : Row → List Char × List Char) :
    let out := t.splitColumn column (t.rows.map cut)
    out.kind column = (Cell.ofFragments (t.rows.map fun row => (cut row).1)).1 ∧
      out.kind (column + 1) = (Cell.ofFragments (t.rows.map fun row => (cut row).2)).1 ∧
      ∃ new : List (String × Kind), new.length = 2 ∧
        out = t.splice column [] new (t.rows.map fun row =>
          [Cell.fragmentAs (out.kind column) (cut row).1,
            Cell.fragmentAs (out.kind (column + 1)) (cut row).2]) := by
  intro out
  let lefts := Cell.ofFragments (t.rows.map fun row => (cut row).1)
  let rights := Cell.ofFragments (t.rows.map fun row => (cut row).2)
  obtain ⟨new, size, halves, written⟩ : ∃ new : List (String × Kind), new.length = 2 ∧
      new.map (·.2) = [lefts.1, rights.1] ∧ out = t.splice column [] new (t.rows.map fun row =>
        [Cell.fragmentAs lefts.1 (cut row).1, Cell.fragmentAs rights.1 (cut row).2]) :=
    ⟨_, rfl, rfl, split_column_rows t column cut⟩
  have kinds {half : Nat} (isHalf : half < 2) :
      out.kind (column + half) = [lefts.1, rights.1].getD half .text := by
    rw [written, kind, ← halves]
    exact splice_getD_new inside _ _ (by simpa [size] using isHalf)
  have left : out.kind column = lefts.1 := kinds Nat.two_pos
  have right : out.kind (column + 1) = rights.1 := kinds Nat.one_lt_two
  refine ⟨left, right, new, size, ?_⟩
  rw [left, right]
  exact written

/-- **What is put back is included below.** Some columns of a table stay in the
value of a step. If the requirement uses the columns that stay, but for one that
is replaced and some that go, and the cells put in its place are the cells of
some other columns below, then the requirement is included there. -/
theorem spliced_included (total : mapping.length = required.width) (injective : mapping.Nodup)
    (columns : ColumnsFrom t stays source) {place : Nat} {gone : List Nat}
    (kept : ∀ k < required.width, k ≠ place → k ∉ gone → mapping.getD k 0 ∈ stays)
    {sent : List Nat} (different : sent.Nodup) (inRange : ∀ c ∈ sent, c < t.width)
    (apart : ∀ d ∈ stays, source d ∉ sent) {new : List (String × Kind)}
    (size : new.length = sent.length) {cells : Row → Row} {drawn : List Row}
    (below : drawn <+~ t.rows)
    (recovered : List.Forall₂ (fun row held => (cells row).key = (held.pick sent).key ∧
      ∀ k < required.width, k ≠ place → k ∉ gone →
        (row.at k).key = (held.at (source (mapping.getD k 0))).key) required.rows drawn) :
    (required.splice place gone new (required.rows.map cells)).includedIn t = true := by
  let back := Reshape.splice required.width place gone sent fun k => source (mapping.getD k 0)
  have length : back.length = (required.splice place gone new (required.rows.map cells)).width :=
    splice_length (by simp [size])
  have nodup : back.Nodup := by
    refine splice_nodup different (fun k inside here stay => ?_) ?_
    · exact apart _ (kept k inside here stay)
    · intro k inside here stay l inside' here' stay' same
      have sameColumn := columns.different _ (kept k inside here stay) _
        (kept l inside' here' stay') same
      rw [← total] at inside inside'
      rw [List.getD_eq_getElem _ _ inside, List.getD_eq_getElem _ _ inside'] at sameColumn
      exact injective.getElem_inj_iff.mp sameColumn
  refine included_of_subperm length nodup (fun c member => ?_) ?_
  · rcases mem_splice member with added | ⟨k, inside, here, stay, rfl⟩
    · exact inRange c added
    · exact columns.inRange _ (kept k inside here stay)
  · -- Row by row, the cells put back have the keys of the cells below.
    have same : (required.splice place gone new (required.rows.map cells)).keys =
        drawn.map fun held => (held.pick back).key := by
      rw [keys, splice_rows, List.map_map]
      refine map_eq_of_forall₂ (recovered.imp fun row held agrees => ?_)
      simp only [Function.comp_apply, Row.key, Row.pick, back, map_splice]
      exact splice_congr (by simpa [Row.key, Row.pick] using agrees.1) agrees.2
    rw [same, keys, project, List.map_map]
    exact subperm_map _ below

end Table
end Reshape
