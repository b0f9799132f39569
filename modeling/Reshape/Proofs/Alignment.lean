import Mathlib.Data.List.Forall2
import Mathlib.Data.List.GetD
import Mathlib.Data.List.Lex
import Reshape.Inclusion
import Reshape.Proofs.Multiplicity

/-! Alignment decides inclusion. A match is defined on its own, by counting
tuples of keys, and the search for one is shown to find the lexicographically
first match whenever there is a match at all. The tests of sizes and of single
columns that come before the search are consequences of a match, so they lose
nothing; and the search accepts nothing that is not a match. -/
namespace Reshape

open scoped List

/-- How often a tuple is wanted, against how often it is held. -/
def Matching.Agrees : Matching → (wanted held : Nat) → Prop
  | .included, wanted, held => wanted ≤ held
  | .exact, wanted, held => wanted = held

namespace Table

/-- A way to send the columns of the required table to different columns of the
actual one, under which every tuple of keys occurs among the required rows at
most as often as among the actual rows cut down to those columns, or in exact
mode equally often and between tables of equal width. No search defines this. -/
structure Matches (mode : Matching) (required actual : Table) (mapping : List Nat) : Prop where
  total : mapping.length = required.width
  different : mapping.Nodup
  inRange : ∀ c ∈ mapping, c < actual.width
  tuples : ∀ tuple : Row,
    mode.Agrees (required.keys.count tuple) ((actual.project mapping).keys.count tuple)
  widths : mode = .exact → required.width = actual.width

theorem key_at (row : Row) (c : Nat) : row.key.at c = (row.at c).key :=
  List.getD_map row (default : Cell) Cell.key

theorem key_pick (row : Row) (columns : List Nat) :
    (row.pick columns).key = row.key.pick columns := by
  simp [Row.pick, Row.key, ← key_at]

/-- Cutting rows down to columns commutes with taking keys. -/
theorem keys_project (t : Table) (columns : List Nat) :
    (t.project columns).keys = t.keys.map (Row.pick · columns) := by
  simp [keys, project, key_pick]

theorem pick_at (row : Row) {columns : List Nat} {i : Nat} (inside : i < columns.length) :
    (row.pick columns).at i = row.at columns[i] := by
  simp [Row.pick, Row.at, inside]

/-- The rows fit when every tuple is there as often as the mode asks. -/
theorem rows_fit_iff {mode : Matching} {required actual : List Row} :
    mode.rowsFit required actual = true ↔
      ∀ tuple, mode.Agrees (required.count tuple) (actual.count tuple) := by
  cases mode with
  | included => simp only [Matching.rowsFit, Matching.Agrees, counted_in_iff_subperm,
      subperm_iff_count_le]
  | exact =>
    simp only [Matching.rowsFit, Matching.Agrees, Bool.and_eq_true, counted_in_iff_subperm,
      subperm_iff_count_le, ← forall_and]
    exact forall_congr' fun tuple => Nat.le_antisymm_iff.symm

/-- A match of rows is in particular an inclusion. -/
theorem Matches.subperm {mode : Matching} {required actual : Table} {mapping : List Nat}
    (found : Matches mode required actual mapping) :
    required.keys <+~ (actual.project mapping).keys := by
  refine subperm_iff_count_le.mpr fun tuple => ?_
  have agrees := found.tuples tuple
  cases mode with
  | included => exact agrees
  | exact => exact Nat.le_of_eq agrees

/-- In exact mode the rows are rearranged. -/
theorem Matches.perm {required actual : Table} {mapping : List Nat}
    (found : Matches .exact required actual mapping) :
    required.keys ~ (actual.project mapping).keys :=
  List.perm_iff_count.mpr found.tuples

/-- An assignment that extends what is taken: one further element from each
list of options, all different, and accepted as a whole. -/
structure Assigns (accept : List Nat → Bool) (options : List (List Nat))
    (taken chosen : List Nat) : Prop where
  offered : List.Forall₂ (· ∈ ·) chosen options
  different : (taken ++ chosen).Nodup
  accepted : accept (taken ++ chosen) = true

private theorem assigns_cons_iff {accept : List Nat → Bool} {here : List Nat}
    {rest : List (List Nat)} {taken chosen : List Nat} {c : Nat} :
    Assigns accept (here :: rest) taken (c :: chosen) ↔
      c ∈ here ∧ c ∉ taken ∧ Assigns accept rest (taken ++ [c]) chosen := by
  constructor
  · rintro ⟨offered, different, accepted⟩
    obtain ⟨member, offered⟩ := List.forall₂_cons.mp offered
    refine ⟨member, ?_, offered, by simpa using different, by simpa using accepted⟩
    exact fun used => (List.disjoint_of_nodup_append different) used List.mem_cons_self
  · rintro ⟨member, _, offered, different, accepted⟩
    exact ⟨.cons member offered, by simpa using different, by simpa using accepted⟩

/-- Nothing is found only when there is no assignment. -/
theorem first_assignment_none {accept : List Nat → Bool} {options : List (List Nat)}
    {taken : List Nat} (missing : firstAssignment accept options taken = none)
    (chosen : List Nat) : ¬ Assigns accept options taken chosen := by
  induction options generalizing taken chosen with
  | nil =>
    rintro ⟨offered, different, accepted⟩
    cases offered
    simp only [List.append_nil] at accepted
    simp [firstAssignment, accepted] at missing
  | cons here rest ih =>
    intro assigned
    cases chosen with
    | nil => cases assigned.offered
    | cons c chosen =>
      obtain ⟨member, unused, assigned⟩ := assigns_cons_iff.mp assigned
      rw [firstAssignment, List.findSome?_eq_none_iff] at missing
      have below := missing c member
      rw [if_neg unused] at below
      exact ih below chosen assigned

/-- What is found extends what is taken by the lexicographically least
assignment. The options have to be listed in increasing order. -/
theorem first_assignment_least {accept : List Nat → Bool} {options : List (List Nat)}
    (increasing : ∀ here ∈ options, here.Pairwise (· < ·)) {taken found : List Nat}
    (fresh : taken.Nodup) (ran : firstAssignment accept options taken = some found) :
    ∃ chosen, found = taken ++ chosen ∧ Assigns accept options taken chosen ∧
      ∀ other, Assigns accept options taken other →
        chosen = other ∨ List.Lex (· < ·) chosen other := by
  induction options generalizing taken with
  | nil =>
    rw [firstAssignment] at ran
    split at ran
    · rename_i accepted
      cases ran
      refine ⟨[], by simp, ⟨.nil, by simpa using fresh, by simpa using accepted⟩, ?_⟩
      intro other assigned
      cases assigned.offered
      exact .inl rfl
    · cases ran
  | cons here rest ih =>
    rw [firstAssignment, List.findSome?_eq_some_iff] at ran
    obtain ⟨earlier, c, later, split, ran, failed⟩ := ran
    have ordered := increasing here List.mem_cons_self
    rw [split, List.pairwise_append, List.pairwise_cons] at ordered
    split_ifs at ran with used
    have freshNext : (taken ++ [c]).Nodup :=
      List.nodup_append.mpr ⟨fresh, List.nodup_singleton c, by
        rintro a held b last rfl
        exact used (List.mem_singleton.mp last ▸ held)⟩
    obtain ⟨chosen, rfl, assigned, least⟩ :=
      ih (fun list member => increasing list (List.mem_cons_of_mem _ member)) freshNext ran
    refine ⟨c :: chosen, by simp, assigns_cons_iff.mpr ⟨by simp [split], used, assigned⟩, ?_⟩
    intro other otherAssigned
    cases other with
    | nil => cases otherAssigned.offered
    | cons d other =>
      obtain ⟨member, unused, otherAssigned⟩ := assigns_cons_iff.mp otherAssigned
      rw [split] at member
      rcases List.mem_append.mp member with before | member
      · -- An earlier option was tried in vain.
        have vain := failed d before
        rw [if_neg unused] at vain
        exact absurd otherAssigned (first_assignment_none vain other)
      · rcases List.mem_cons.mp member with rfl | after
        · rcases least other otherAssigned with rfl | smaller
          · exact .inl rfl
          · exact .inr (.cons smaller)
        · exact .inr (.rel (ordered.2.1.1 d after))

/-- The options for a column are the columns of the actual table that pass the
test of single columns, in increasing order. -/
theorem align_options_eq (mode : Matching) (required actual : Table) :
    alignOptions mode required actual = required.positions.map fun c =>
      actual.positions.filter fun d =>
        mode.columnFits (required.keys.map (Row.at · c)) (actual.keys.map (Row.at · d)) := by
  refine List.map_congr_left fun c _ => ?_
  rw [List.filterMap_map, ← List.filterMap_eq_filter]
  refine List.filterMap_congr fun d _ => ?_
  simp [Option.guard]

/-- A column under a match passes the test of single columns. -/
theorem Matches.column_fits {mode : Matching} {required actual : Table} {mapping : List Nat}
    (found : Matches mode required actual mapping) {i : Nat} (inside : i < mapping.length) :
    mode.columnFits (required.keys.map (Row.at · i))
      (actual.keys.map (Row.at · mapping[i])) = true := by
  have cut : (actual.project mapping).keys.map (Row.at · i) =
      actual.keys.map (Row.at · mapping[i]) := by
    rw [keys_project, List.map_map]
    exact List.map_congr_left fun row _ => pick_at row inside
  cases mode with
  | included =>
    rw [Matching.columnFits, counted_in_iff_subperm, ← cut]
    exact subperm_map _ found.subperm
  | exact =>
    have same := found.perm.map (Row.at · i)
    rw [cut] at same
    simp [Matching.columnFits, firsts_by_length_of_perm same, same.count_eq]

/-- A match leaves room in both directions, so the test of sizes passes. -/
theorem Matches.sizes_fit {mode : Matching} {required actual : Table} {mapping : List Nat}
    (found : Matches mode required actual mapping) : mode.sizesFit required actual = true := by
  have height (columns : List Nat) : (actual.project columns).keys.length = actual.height := by
    simp [keys, project, Table.height]
  have inside : mapping <+~ actual.positions :=
    List.subperm_of_subset found.different fun c member =>
      List.mem_range.mpr (found.inRange c member)
  cases mode with
  | included =>
    have narrow := inside.length_le
    have short := found.subperm.length_le
    rw [height] at short
    simp only [positions, List.length_range, found.total] at narrow
    simpa [Matching.sizesFit] using ⟨narrow, by simpa [keys, Table.height] using short⟩
  | exact =>
    have tall := found.perm.length_eq
    rw [height] at tall
    simpa [Matching.sizesFit] using ⟨found.widths rfl, by simpa [keys, Table.height] using tall⟩

/-- Between tables whose sizes leave room, the assignments that are searched
are the matches. -/
theorem assigns_iff_matches {mode : Matching} {required actual : Table} {mapping : List Nat}
    (sizes : mode.sizesFit required actual = true) :
    Assigns (fun mapping => mode.rowsFit required.keys (actual.keys.map (Row.pick · mapping)))
      (alignOptions mode required actual) [] mapping ↔ Matches mode required actual mapping := by
  rw [align_options_eq]
  constructor
  · rintro ⟨offered, different, accepted⟩
    have total := offered.length_eq
    simp only [List.length_map, positions, List.length_range] at total
    refine ⟨total, by simpa using different, ?_, ?_, ?_⟩
    · intro c member
      obtain ⟨i, inside, rfl⟩ := List.getElem_of_mem member
      have option := (List.forall₂_iff_get.mp offered).2 i inside (by simpa [positions, ← total])
      simp only [List.get_eq_getElem, List.getElem_map, List.mem_filter, positions,
        List.mem_range] at option
      exact option.1
    · rw [keys_project]
      exact rows_fit_iff.mp (by simpa using accepted)
    · rintro rfl
      simp only [Matching.sizesFit, decide_eq_true_eq] at sizes
      exact sizes.1
  · intro found
    refine ⟨List.forall₂_iff_get.mpr ⟨by simp [positions, found.total], ?_⟩,
      by simpa using found.different, ?_⟩
    · intro i inside bound
      simp only [List.get_eq_getElem, List.getElem_map, List.mem_filter, positions,
        List.getElem_range, List.mem_range]
      exact ⟨found.inRange _ (List.getElem_mem inside), found.column_fits inside⟩
    · rw [List.nil_append, rows_fit_iff, ← keys_project]
      exact found.tuples

private theorem align_eq (mode : Matching) (required actual : Table) :
    align mode required actual =
      if mode.sizesFit required actual then
        if (alignOptions mode required actual).any List.isEmpty then none
        else firstAssignment
          (fun mapping => mode.rowsFit required.keys (actual.keys.map (Row.pick · mapping)))
          (alignOptions mode required actual) []
      else none := rfl

/-- What alignment returns is the least match. -/
theorem align_some {mode : Matching} {required actual : Table} {mapping : List Nat}
    (ran : align mode required actual = some mapping) :
    Matches mode required actual mapping ∧ ∀ other, Matches mode required actual other →
      mapping = other ∨ List.Lex (· < ·) mapping other := by
  rw [align_eq] at ran
  split_ifs at ran with sizes
  have increasing : ∀ here ∈ alignOptions mode required actual, here.Pairwise (· < ·) := by
    intro here member
    rw [align_options_eq] at member
    obtain ⟨c, -, rfl⟩ := List.mem_map.mp member
    exact List.pairwise_lt_range.filter _
  obtain ⟨chosen, rfl, assigned, least⟩ :=
    first_assignment_least increasing List.nodup_nil ran
  exact ⟨(assigns_iff_matches sizes).mp assigned,
    fun other found => least other ((assigns_iff_matches sizes).mpr found)⟩

/-- Where there is a match, alignment returns one. -/
theorem align_none {mode : Matching} {required actual : Table}
    (missing : align mode required actual = none) (mapping : List Nat) :
    ¬ Matches mode required actual mapping := by
  intro found
  have assigned := (assigns_iff_matches found.sizes_fit).mpr found
  rw [align_eq, if_pos found.sizes_fit] at missing
  split_ifs at missing with empty
  · obtain ⟨here, member, none⟩ := List.any_eq_true.mp empty
    obtain ⟨i, inside, rfl⟩ := List.getElem_of_mem member
    have bound : i < mapping.length := by rw [assigned.offered.length_eq]; exact inside
    have option := (List.forall₂_iff_get.mp assigned.offered).2 i bound inside
    simp only [List.get_eq_getElem, List.isEmpty_iff.mp none] at option
    cases option
  · exact first_assignment_none missing mapping assigned

/-- One table is included in another exactly when some mapping matches. -/
theorem included_in_iff {required actual : Table} :
    required.includedIn actual = true ↔ ∃ mapping, Matches .included required actual mapping := by
  rw [includedIn, Option.isSome_iff_exists]
  constructor
  · rintro ⟨mapping, ran⟩
    exact ⟨mapping, (align_some ran).1⟩
  · rintro ⟨mapping, found⟩
    cases ran : align .included required actual with
    | none => exact absurd found (align_none ran mapping)
    | some first => exact ⟨first, rfl⟩

/-- **Alignment is exact.** A mapping is returned just when some mapping matches,
and the one returned is the match that comes first lexicographically. -/
theorem align_eq_some_iff_least (mode : Matching) (required actual : Table) :
    ((align mode required actual).isSome = true ↔
      ∃ mapping, Matches mode required actual mapping) ∧
    ∀ mapping, align mode required actual = some mapping ↔
      Matches mode required actual mapping ∧ ∀ other, Matches mode required actual other →
        mapping = other ∨ List.Lex (· < ·) mapping other := by
  cases ran : align mode required actual with
  | none =>
    have never := align_none ran
    exact ⟨by simpa using never, fun mapping => by simp [never mapping]⟩
  | some first =>
    obtain ⟨found, least⟩ := align_some ran
    refine ⟨by simpa using ⟨first, found⟩, fun mapping => ⟨?_, ?_⟩⟩
    · rintro same
      cases same
      exact ⟨found, least⟩
    · rintro ⟨other, otherLeast⟩
      rcases least mapping other with rfl | smaller
      · rfl
      · rcases otherLeast first found with rfl | larger
        · rfl
        · exact absurd larger (List.lex_asymm Nat.lt_asymm smaller)

end Table
end Reshape
