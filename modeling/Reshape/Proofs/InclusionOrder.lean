import Reshape.Proofs.Equivalence

/-! Inclusion as an order. A table includes itself, by sending each column to
itself, and a match followed by a match is a match. Two tables that include each
other are equally wide and equally high, so either of the two matches uses every
column and every row: it is exact, whatever the other one does. Thus inclusion
is a preorder, and the tables that it does not tell apart are the equivalent
ones. -/
namespace Reshape

open scoped List

/-- No list of different numbers comes before the one that counts up. -/
theorem range_least {start : Nat} {other : List Nat} (different : other.Nodup)
    (above : ∀ c ∈ other, start ≤ c) :
    List.range' start other.length = other ∨
      List.Lex (· < ·) (List.range' start other.length) other := by
  induction other generalizing start with
  | nil => exact .inl rfl
  | cons c rest ih =>
    obtain ⟨absent, apart⟩ := List.nodup_cons.mp different
    obtain ⟨here, later⟩ := List.forall_mem_cons.mp above
    rw [List.length_cons, List.range'_succ]
    rcases Nat.eq_or_lt_of_le here with rfl | less
    · have next : ∀ d ∈ rest, start + 1 ≤ d := fun d member =>
        Nat.lt_of_le_of_ne (later d member) fun same => absent (same ▸ member)
      rcases ih apart next with same | smaller
      · exact .inl (congrArg _ same)
      · exact .inr (.cons smaller)
    · exact .inr (.rel less)

namespace Table

variable {a b c required actual t : Table} {mapping : List Nat}

/-- A table matches itself, column by column. -/
theorem matches_self (mode : Matching) (shaped : t.Shaped) : Matches mode t t t.positions := by
  refine ⟨List.length_range, List.nodup_range, fun c member => List.mem_range.mp member,
    fun tuple => ?_, fun _ => rfl⟩
  rw [keys_project_positions shaped]
  cases mode with
  | included => exact le_rfl
  | exact => rfl

/-- Of all ways to align a table with itself, the first sends each column to itself. -/
theorem align_self (mode : Matching) (shaped : t.Shaped) : align mode t t = some t.positions := by
  refine ((align_eq_some_iff_least mode t t).2 _).mpr ⟨matches_self mode shaped, ?_⟩
  intro other found
  have least : List.range' 0 other.length = other ∨
      List.Lex (· < ·) (List.range' 0 other.length) other :=
    range_least found.different fun c _ => Nat.zero_le c
  rwa [found.total, ← List.range_eq_range'] at least

/-- Cells picked out of picked cells. -/
theorem pick_pick (row : Row) {outer inner : List Nat} (inside : ∀ i ∈ inner, i < outer.length) :
    (row.pick outer).pick inner = row.pick (inner.map (outer.getD · 0)) := by
  rw [Row.pick, Row.pick.eq_1 row (inner.map _), List.map_map]
  refine List.map_congr_left fun i member => ?_
  rw [pick_at row (inside i member), Function.comp_apply,
    List.getD_eq_getElem _ _ (inside i member)]

/-- A match followed by a match. -/
theorem Matches.trans {first second : List Nat} (found : Matches .included a b first)
    (further : Matches .included b c second) :
    Matches .included a c (first.map (second.getD · 0)) := by
  have sent : ∀ i ∈ first, i < second.length := fun i member =>
    further.total ▸ found.inRange i member
  have both : (c.project (first.map (second.getD · 0))).keys =
      (c.project second).keys.map (Row.pick · first) := by
    rw [keys_project, keys_project, List.map_map]
    exact List.map_congr_left fun row _ => (pick_pick row sent).symm
  refine ⟨by rw [List.length_map, found.total], ?_, ?_, ?_, nofun⟩
  · refine found.different.map_on fun i member j member' same => ?_
    exact further.getD_inj (found.inRange i member) (found.inRange j member') same
  · intro d member
    obtain ⟨i, used, rfl⟩ := List.mem_map.mp member
    exact further.inRange _ (further.getD_mem (found.inRange i used))
  · refine subperm_iff_count_le.mp (found.subperm.trans ?_)
    rw [both, keys_project]
    exact subperm_map _ further.subperm

/-- What is included in a table is included wherever that table is. -/
theorem included_in_trans (first : a.includedIn b = true) (second : b.includedIn c = true) :
    a.includedIn c = true := by
  obtain ⟨mapping, found⟩ := included_in_iff.mp first
  obtain ⟨further, beyond⟩ := included_in_iff.mp second
  exact included_in_iff.mpr ⟨_, found.trans beyond⟩

/-- A match that leaves no row over and no column is exact. -/
theorem Matches.exact_of_sizes (found : Matches .included required actual mapping)
    (widths : required.width = actual.width) (heights : actual.height ≤ required.height) :
    Matches .exact required actual mapping := by
  have rows : required.keys ~ (actual.project mapping).keys := by
    refine found.subperm.perm_of_length_le ?_
    simpa [keys, project, height] using heights
  exact ⟨found.total, found.different, found.inRange, rows.count_eq, fun _ => widths⟩

theorem Matches.included (found : Matches .exact required actual mapping) :
    Matches .included required actual mapping :=
  ⟨found.total, found.different, found.inRange, fun tuple => (found.tuples tuple).le, nofun⟩

/-- An exact match can be followed back: every column of the actual table is the
image of one required column. -/
theorem Matches.back (shaped : actual.Shaped) (found : Matches .exact required actual mapping) :
    Matches .exact actual required (actual.positions.map mapping.idxOf) := by
  have widths := found.widths rfl
  have used : mapping ~ actual.positions := by
    refine (List.subperm_of_subset found.different fun c member =>
      List.mem_range.mpr (found.inRange c member)).perm_of_length_le ?_
    rw [List.length_range, found.total, widths]
  have image : ∀ d ∈ actual.positions, d ∈ mapping := fun d member => used.symm.subset member
  refine ⟨(List.length_map _).trans List.length_range, ?_, ?_, ?_, fun _ => widths.symm⟩
  · refine List.Nodup.map_on (fun d member e member' same => ?_) List.nodup_range
    exact (List.idxOf_inj (image d member)).mp same
  · intro i member
    obtain ⟨d, held, rfl⟩ := List.mem_map.mp member
    exact found.total ▸ List.idxOf_lt_length_of_mem (image d held)
  · have returned (row : Row) : (row.pick mapping).pick (actual.positions.map mapping.idxOf) =
        row.pick actual.positions := by
      simpa using pick_rearranged image row []
    have rows : (required.project (actual.positions.map mapping.idxOf)).keys ~ actual.keys := calc
      (required.project (actual.positions.map mapping.idxOf)).keys
      _ = required.keys.map (Row.pick · (actual.positions.map mapping.idxOf)) := keys_project _ _
      _ ~ (actual.project mapping).keys.map (Row.pick · (actual.positions.map mapping.idxOf)) :=
        found.perm.map _
      _ = actual.keys.map (Row.pick · actual.positions) := by
        rw [keys_project, List.map_map]
        exact List.map_congr_left fun row _ => returned row
      _ = actual.keys := by rw [← keys_project, keys_project_positions shaped]
    exact rows.symm.count_eq

/-- **Tables are equivalent just when each is included in the other**, by
matches that need have nothing to do with each other. -/
theorem equivalent_to_iff_mutual (shaped : b.Shaped) :
    a.equivalentTo b = true ↔ a.includedIn b = true ∧ b.includedIn a = true := by
  rw [equivalent_to_iff]
  constructor
  · rintro ⟨mapping, found⟩
    exact ⟨included_in_iff.mpr ⟨mapping, found.included⟩,
      included_in_iff.mpr ⟨_, (found.back shaped).included⟩⟩
  · rintro ⟨there, back⟩
    obtain ⟨mapping, found⟩ := included_in_iff.mp there
    obtain ⟨other, returned⟩ := included_in_iff.mp back
    have sizes := found.sizes_fit
    have sizes' := returned.sizes_fit
    simp only [Matching.sizesFit, decide_eq_true_eq] at sizes sizes'
    exact ⟨mapping, found.exact_of_sizes (le_antisymm sizes.1 sizes'.1) sizes'.2⟩

/-- **Inclusion is a preorder, and equivalence is what it cannot tell apart.** A
table is aligned with itself column by column, in either mode; inclusion goes on
from table to table; and as tables are equivalent just when each is included in
the other, equivalence is an equivalence relation. -/
theorem inclusion_preorder :
    (∀ (mode : Matching) (t : Table), t.Shaped → align mode t t = some t.positions) ∧
    (∀ a b c : Table, a.includedIn b = true → b.includedIn c = true → a.includedIn c = true) ∧
    (∀ a b : Table, b.Shaped →
      (a.equivalentTo b = true ↔ a.includedIn b = true ∧ b.includedIn a = true)) ∧
    Equivalence fun a b : { t : Table // t.Shaped } => a.val.equivalentTo b.val = true := by
  refine ⟨fun mode t => align_self mode, fun a b c => included_in_trans,
    fun a b => equivalent_to_iff_mutual, ?_⟩
  constructor
  · intro t
    exact equivalent_to_iff.mpr ⟨_, matches_self .exact t.property⟩
  · intro a b equal
    obtain ⟨there, back⟩ := (equivalent_to_iff_mutual b.property).mp equal
    exact (equivalent_to_iff_mutual a.property).mpr ⟨back, there⟩
  · intro a b c first second
    obtain ⟨there, back⟩ := (equivalent_to_iff_mutual b.property).mp first
    obtain ⟨there', back'⟩ := (equivalent_to_iff_mutual c.property).mp second
    exact (equivalent_to_iff_mutual c.property).mpr
      ⟨included_in_trans there there', included_in_trans back' back⟩

/-- Three names in the orders that come round. -/
def rounds : Table where
  columns := ["first", "second", "third"]
  kinds := [.text, .text, .text]
  rows := [[.text "a", .text "b", .text "c"], [.text "b", .text "c", .text "a"],
    [.text "c", .text "a", .text "b"]]

/-- The same with the columns from right to left. -/
def backwards : Table := rounds.project [2, 1, 0]

/-- The same with a number to each row, and the last row twice. -/
def enumerated : Table where
  columns := ["number", "third", "first", "second"]
  kinds := [.number, .text, .text, .text]
  rows := [[.number 1, .text "c", .text "a", .text "b"],
    [.number 2, .text "a", .text "b", .text "c"], [.number 3, .text "b", .text "c", .text "a"],
    [.number 4, .text "b", .text "c", .text "a"]]

/-- There are three ways to match the rounds with their mirror image, and the
first of them keeps just one column in its place. -/
theorem inclusion_preorder_rounds :
    align .exact rounds rounds = some [0, 1, 2] ∧
      align .included rounds backwards = some [0, 2, 1] ∧
      rounds.includedIn enumerated = true ∧ rounds.equivalentTo backwards = true ∧
      backwards.equivalentTo rounds = true := by
  have shaped : rounds.Shaped := ⟨rfl, by decide⟩
  have shaped' : backwards.Shaped := project_shaped shaped _
  obtain ⟨self, onward, mutually, equivalence⟩ := inclusion_preorder
  have there : rounds.includedIn backwards = true := by decide +kernel
  have back : backwards.includedIn rounds = true := by decide +kernel
  have further : backwards.includedIn enumerated = true := by decide +kernel
  have equal : rounds.equivalentTo backwards = true :=
    (mutually rounds backwards shaped').mpr ⟨there, back⟩
  refine ⟨self .exact rounds shaped, by decide +kernel, onward _ _ _ there further, equal, ?_⟩
  exact equivalence.symm (x := ⟨rounds, shaped⟩) (y := ⟨backwards, shaped'⟩) equal

end Table
end Reshape
