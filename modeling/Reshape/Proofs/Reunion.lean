import Mathlib.Data.List.Sort
import Reshape.Proofs.Replacement

/-! Joining what a separation took apart. A requirement on the two halves is
handed down with the halves joined by each separator, and one of these tables is
included below: the one with the separator that stood in the texts. This needs
that the cells required of the halves are printed as the fragments that stood
there. Of texts this is true. A half that became a column of numbers, however,
does not tell how its numbers were written, and they are matched up to five
places only. -/
namespace Reshape

open scoped List

namespace Table

variable {t out required : Table} {mapping : List Nat} {c : Nat}

/-- Two columns that may be the halves of a text are joined by each separator. -/
theorem joined_mem_unseparated {left right : Nat} {separator : Char} (before : left < right)
    (inside : right < required.width)
    (leftJoinable : required.kind left = .text ∨ required.kind left = .number)
    (rightJoinable : required.kind right = .text ∨ required.kind right = .number)
    (known : separator ∈ Text.separators) :
    required.joined left right separator ∈ required.unseparated := by
  have joinable : ∀ c ∈ [left, right], c ∈ required.joinable := by
    intro c member
    rw [joinable, positions, List.mem_filter, List.mem_range]
    rcases List.mem_pair.mp member with rfl | rfl
    · exact ⟨before.trans inside, by simpa using leftJoinable⟩
    · exact ⟨inside, by simpa using rightJoinable⟩
  have ordered : required.joinable.Pairwise (· < ·) := List.pairwise_lt_range.filter _
  have pair : [left, right] ∈ choose 2 required.joinable := by
    refine mem_choose_iff.mpr ⟨?_, rfl⟩
    have among : [left, right] <+~ required.joinable :=
      List.subperm_of_subset (by simpa using before.ne) joinable
    exact List.sublist_of_subperm_of_pairwise among (by simpa using before) ordered
  exact List.mem_flatMap.mpr ⟨_, pair, List.mem_map_of_mem known⟩

/-- The two sides of a row's cell: what stands before its first separator, and
what stands behind it. -/
abbrev sides (c : Nat) : Row → List Char × List Char := halves (· ∈ Text.separators) c

/-- A text column whose every cell has a separator is separated. -/
theorem separate_sides {separator : Char} (texts : t.kind c = .text)
    (separated : ∀ row ∈ t.rows,
      (cellText (row.at c)).find? (· ∈ Text.separators) = some separator) :
    t.separate c = .ok (t.splitColumn c (t.rows.map (sides c))) := by
  refine separate_eq_ok.mpr ⟨texts, _, ?_, rfl⟩
  refine List.forall₂_map_left_iff.mpr (List.forall₂_map_right_iff.mpr ?_)
  exact List.forall₂_same.mpr fun row member => (halves_eq (separated row member)).1

/-- Whether a required row prints the numbers of two of its columns as the sides
of the cell that a held row has in a column, as far as the sides became numbers. -/
def Reprints (out : Table) (c left right : Nat) (row held : Row) : Prop :=
  (out.kind c = .number → (row.at left).display = .ofList (sides c held).1) ∧
    (out.kind (c + 1) = .number → (row.at right).display = .ofList (sides c held).2)

/-- A cell that agrees with a fragment is printed as that fragment if it is a
text. -/
theorem display_of_fragment {kind : Kind} {fragment : List Char} {cell : Cell}
    (agrees : (Cell.fragmentAs kind fragment).key = cell.key)
    (printed : kind = .number → cell.display = .ofList fragment) :
    cell.display = .ofList fragment := by
  by_cases number : kind = .number
  · exact printed number
  · rw [Cell.fragmentAs, if_neg number] at agrees
    rw [Cell.eq_text_of_key agrees.symm]
    rfl

/-- The sides of a text join to the text. -/
theorem join_sides {held : Row} {separator : Char} {left right : Cell}
    (first : (cellText (held.at c)).find? (· ∈ Text.separators) = some separator)
    (text : (held.at c).kind = .text) (leftPrinted : left.display = .ofList (sides c held).1)
    (rightPrinted : right.display = .ofList (sides c held).2) :
    joinCells (.ofList [separator]) left right = held.at c := by
  have whole := (halves_eq first).2
  cases cell : held.at c with
  | text s =>
    have spelled : s.toList = (sides c held).1 ++ separator :: (sides c held).2 := by
      rw [← whole, cell]
      rfl
    rw [joinCells, leftPrinted, rightPrinted, ← String.ofList_append, ← String.ofList_append,
      List.append_assoc, List.singleton_append, ← spelled, String.ofList_toList]
  | number x => simp [cell] at text
  | boolean b => simp [cell] at text

/-- The join with the separator that stood in the texts is included below. -/
theorem joined_included {separator : Char} {i j : Nat} (shaped : t.Shaped) (inside : c < t.width)
    (texts : t.kind c = .text)
    (separated : ∀ row ∈ t.rows,
      (cellText (row.at c)).find? (· ∈ Text.separators) = some separator)
    (made : out = t.splitColumn c (t.rows.map (sides c)))
    (found : Matches .included required out mapping) (insideLeft : i < required.width)
    (insideRight : j < required.width) (sentLeft : mapping.getD i 0 = c)
    (sentRight : mapping.getD j 0 = c + 1) {drawn : List (Row × Row)}
    (below : drawn <+~ t.rows.zip out.rows)
    (agree : List.Forall₂ (fun row pair =>
      (pair.2.pick mapping).key = row.key ∧ Reprints out c i j row pair.1) required.rows drawn) :
    (required.joined i j separator).includedIn t = true := by
  obtain ⟨-, -, new, -, spliced⟩ := split_column_map inside (sides c)
  rw [← made] at spliced
  have rows := (congrArg Table.rows spliced).trans (splice_rows t c [] new _)
  rw [rows, zip_map_self] at below
  have firsts : drawn.map Prod.fst <+~ t.rows := by
    simpa [Function.comp_def] using subperm_map Prod.fst below
  have stay : ∀ k < required.width, k ≠ i → k ∉ [j] → mapping.getD k 0 ∈
      (List.range (t.width + 1)).filter fun d => d ≠ c ∧ d ≠ c + 1 := by
    intro k bound notLeft notRight
    have other := found.getD_ne bound insideLeft sentLeft notLeft
    have other' := found.getD_ne bound insideRight sentRight (List.ne_of_not_mem_cons notRight)
    have inOut := found.inRange _ (found.getD_mem bound)
    rw [made, split_column_width inside] at inOut
    exact List.mem_filter.mpr ⟨List.mem_range.mpr inOut, decide_eq_true ⟨other, other'⟩⟩
  refine spliced_included found.total found.different (columns_from_split inside) stay
    (List.nodup_singleton c) (by simpa using inside) ?_ rfl firsts ?_
  · intro d stays
    have place : d < t.width + 1 ∧ d ≠ c ∧ d ≠ c + 1 := by simpa using stays
    rw [List.mem_singleton]
    split <;> omega
  · refine List.forall₂_map_right_iff.mpr ((forall₂_mem agree).imp fun row pair => ?_)
    rintro ⟨-, member, same, reprints⟩
    obtain ⟨held, inTable, rfl⟩ := List.mem_map.mp (below.subset member)
    dsimp only at same reprints
    generalize leftCell : Cell.fragmentAs (out.kind c) (sides c held).1 = left at same
    generalize rightCell : Cell.fragmentAs (out.kind (c + 1)) (sides c held).2 = right at same
    have agrees {k : Nat} (bound : k < required.width) :=
      key_at_of_agrees same (found.total ▸ bound)
    refine ⟨?_, fun k bound notLeft notRight => ?_⟩
    · obtain ⟨leftHalf, rightHalf⟩ := halves_at inside left right held
      have leftAgrees := agrees insideLeft
      have rightAgrees := agrees insideRight
      rw [sentLeft, leftHalf, ← leftCell] at leftAgrees
      rw [sentRight, rightHalf, ← rightCell] at rightAgrees
      have joined := join_sides (separated held inTable)
        ((shaped.kind_at inTable c).trans texts) (display_of_fragment leftAgrees reprints.1)
        (display_of_fragment rightAgrees reprints.2)
      simp only [Row.key, Row.pick, List.map_cons, List.map_nil, joined]
    · have stands := stands_split inside left right held _ (stay k bound notLeft notRight)
      exact (agrees bound).symm.trans stands.symm

end Table

open Table

variable {t : Table} {c : Nat}

/-- **Joining undoes a separation that reprints.** Below a column that is
separated everywhere at the same character, one of the requirements handed down
is included: whenever the required rows can be matched with different rows of
the value so that every number required of a half is printed as the fragment
that stood there. -/
theorem separate_covers_reprinted {separator : Char} (shaped : t.Shaped) (inside : c < t.width)
    (texts : t.kind c = .text)
    (separated : ∀ row ∈ t.rows,
      (cellText (row.at c)).find? (· ∈ Text.separators) = some separator) :
    ∃ out, Step.apply ⟨.separate, [.column c]⟩ t = .ok out ∧
      ∀ (required : Table) (mapping : List Nat) (i j : Nat) (outermost : Bool),
        required.Shaped → required.rows ≠ [] → Matches .included required out mapping →
        mapping[i]? = some c → mapping[j]? = some (c + 1) → i < j →
        (∃ drawn, drawn <+~ t.rows.zip out.rows ∧ List.Forall₂ (fun row pair =>
          (pair.2.pick mapping).key = row.key ∧ Reprints out c i j row pair.1)
          required.rows drawn) →
        ∃ r ∈ Operator.separate.backward required outermost, r.includedIn t = true := by
  let out := t.splitColumn c (t.rows.map (sides c))
  have ran : Step.apply ⟨.separate, [.column c]⟩ t = .ok out :=
    bind_eq_ok.mpr ⟨c, Step.take_column_eq_ok.mpr ⟨rfl, inside⟩,
      map_error_eq_ok.mpr (separate_sides texts separated)⟩
  refine ⟨out, ran, ?_⟩
  intro required mapping i j outermost shapedRequired rows found atLeft atRight before matched
  obtain ⟨drawn, below, agree⟩ := matched
  obtain ⟨insideLeft, sentLeft⟩ := found.sends atLeft
  obtain ⟨insideRight, sentRight⟩ := found.sends atRight
  have known : separator ∈ Text.separators := by
    obtain ⟨row, wanted⟩ := List.exists_mem_of_ne_nil _ rows
    obtain ⟨pair, member, -⟩ := forall₂_exists_right agree wanted
    have inTable := (List.of_mem_zip (below.subset member)).1
    simpa using List.find?_some (separated pair.1 inTable)
  have kinds {k half : Nat} (bound : k < required.width) (isHalf : half < 2)
      (sent : mapping.getD k 0 = c + half) :
      required.kind k = .text ∨ required.kind k = .number := by
    rw [found.kind_eq shapedRequired (split_column_shaped shaped c _) rows bound, sent]
    exact split_column_kind inside _ isHalf
  have candidate := joined_mem_unseparated before insideRight
    (kinds insideLeft Nat.two_pos sentLeft) (kinds insideRight Nat.one_lt_two sentRight) known
  exact Operator.backward_of_undone (List.mem_append_right _ candidate)
    (joined_included shaped inside texts separated rfl found insideLeft insideRight sentLeft
      sentRight below agree)

namespace Reunion

/-- Texts that begin with a number, beside other numbers. -/
def coded : Table where
  columns := ["id", "code"]
  kinds := [.number, .text]
  rows := [[.number 1, .text "7-x"], [.number 2, .text "8-y"]]

/-- The codes separated. -/
def parted : Table where
  columns := ["id", "code1", "code2"]
  kinds := [.number, .number, .text]
  rows := [[.number 1, .number 7, .text "x"], [.number 2, .number 8, .text "y"]]

/-- The halves of one code. -/
def halved : Table := ⟨["n", "w"], [.number, .text], [[.number 8, .text "y"]]⟩

/-- A text that begins with a number that is not printed as it is written. -/
def padded : Table := ⟨["code"], [.text], [[.text "01-x"]]⟩

/-- Its halves. -/
def unpadded : Table := ⟨["n", "w"], [.number, .text], [[.number 1, .text "x"]]⟩

end Reunion

open Reunion in
theorem separate_covers_reprinted_coded :
    Step.apply ⟨.separate, [.column 1]⟩ coded = .ok parted ∧
      Table.align .included halved parted = some [1, 2] ∧
      ∃ r ∈ Operator.separate.backward halved true, r.includedIn coded = true := by
  have shaped : coded.Shaped := ⟨rfl, by simp [coded]⟩
  have shapedRequired : halved.Shaped := ⟨rfl, by simp [halved]⟩
  have separated : ∀ row ∈ coded.rows,
      (cellText (row.at 1)).find? (· ∈ Text.separators) = some '-' := by decide +kernel
  have ran : Step.apply ⟨.separate, [.column 1]⟩ coded = .ok parted := by decide +kernel
  have aligned : Table.align .included halved parted = some [1, 2] := by decide +kernel
  obtain ⟨out, made, covers⟩ := separate_covers_reprinted shaped (by decide) rfl separated
  obtain rfl : parted = out := Except.ok.inj (ran.symm.trans made)
  let pair : Row × Row := ([.number 2, .text "8-y"], [.number 2, .number 8, .text "y"])
  have sub : [pair] <+ coded.rows.zip parted.rows := by decide +kernel
  have reprints : Reprints parted 1 0 1 [.number 8, .text "y"] pair.1 := by
    rw [Reprints]
    decide +kernel
  exact ⟨ran, aligned, covers halved [1, 2] 0 1 true shapedRequired (by decide)
    (align_some aligned).1 rfl rfl Nat.one_pos
    ⟨[pair], sub.subperm, .cons ⟨by decide +kernel, reprints⟩ .nil⟩⟩

open Reunion in
/-- The exception is there. A number that is not printed as it stood is lost. -/
theorem separate_misses_padded :
    padded.WellFormed ∧ padded.kind 0 = .text ∧
      (∀ row ∈ padded.rows,
        (cellText (row.at 0)).find? (· ∈ Text.separators) = some '-') ∧
      ∃ out, Step.apply ⟨.separate, [.column 0]⟩ padded = .ok out ∧ unpadded.rows ≠ [] ∧
        Matches .included unpadded out [0, 1] ∧
        ∀ outermost : Bool, ∀ r ∈ Operator.separate.backward unpadded outermost,
          r.includedIn padded = false := by
  have wellFormed : padded.WellFormed := ⟨by decide, rfl, by simp [padded]⟩
  have value : (Step.apply ⟨.separate, [.column 0]⟩ padded).map
      (Table.align .included unpadded) = .ok (some [0, 1]) := by
    decide +kernel
  obtain ⟨out, ran, aligned⟩ := map_eq_ok.mp value
  exact ⟨wellFormed, rfl, by decide +kernel, out, ran, by decide, (align_some aligned).1,
    by decide +kernel⟩

end Reshape
