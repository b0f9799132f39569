import Reshape.Proofs.Records

/-! Which lists of records are tables. The keys of the first record are the names,
and a list is a table when every record has just these keys, in whatever order
they stand. Otherwise the first record that has other keys is reported: by its
first key that is no name, and if it has none, by the first name that it lacks.
Nothing of a table depends on where a later record keeps its entries. -/
namespace Reshape

namespace Ordered

/-- Maps with the same value at each key. -/
def Agrees {κ α : Type} [DecidableEq κ] (entries others : List (κ × α)) : Prop :=
  ∀ key, get? key entries = get? key others

end Ordered

namespace Table

variable {t : Table} {names : List String} {record : Record} {records : List Record}
  {rows : List Row} {row : Row} {place : Nat} {e : TableError}

/-- The names of a list of records: the keys of the first one, in its order. -/
def namesOf (records : List Record) : List String := records.head?.elim [] Ordered.keys

/-- The keys of a record are these names, in any order. -/
def Keyed (names : List String) (record : Record) : Prop :=
  ∀ name, name ∈ Ordered.keys record ↔ name ∈ names

/-- What is reported of a record that has other keys than the names. -/
inductive Misfit (names : List String) (place : Nat) (record : Record) : TableError → Prop where
  | extra {name : String} (first : (Ordered.keys record).find? (· ∉ names) = some name) :
    Misfit names place record (.extraColumn place name)
  | missing {name : String} (known : ∀ key ∈ Ordered.keys record, key ∈ names)
      (first : names.find? (· ∉ Ordered.keys record) = some name) :
    Misfit names place record (.missingColumn place name)

/-- What becomes of the cells of a column: they stay as they are where all are of
one kind, and in a mixed column each becomes its text. -/
inductive Settles (cells : List Cell) : Kind → List Cell → Prop where
  | alike {kind : Kind} (same : ∀ cell ∈ cells, cell.kind = kind) : Settles cells kind cells
  | mixed (differ : ∃ cell ∈ cells, ∃ other ∈ cells, cell.kind ≠ other.kind) :
    Settles cells .text (cells.map fun cell => .text cell.display)

/-- A table made of records: it has their names and a row for each of them, and
each column holds their cells at its name, settled. -/
structure MadeOf (records : List Record) (t : Table) : Prop where
  well_formed : t.WellFormed
  names : t.columns = namesOf records
  height : t.height = records.length
  column : ∀ c < t.width, ∃ cells,
    List.Forall₂ (fun record cell => Ordered.get? (t.name c) record = some cell) records cells ∧
      Settles cells (t.kind c) (t.column c)

/-- A row holds the cells of a record in the order of the names. -/
structure Reads (names : List String) (record : Record) (row : Row) : Prop where
  known : ∀ key ∈ Ordered.keys record, key ∈ names
  cells : List.Forall₂ (fun name cell => Ordered.get? name record = some cell) names row

theorem reads_iff_keyed : (∃ row, Reads names record row) ↔ Keyed names record := by
  have held : (∃ row, List.Forall₂ (fun name cell => Ordered.get? name record = some cell)
      names row) ↔ ∀ name ∈ names, name ∈ Ordered.keys record := by
    simp only [exists_forall₂_iff, Ordered.mem_keys_iff]
  constructor
  · rintro ⟨row, known, cells⟩ name
    exact ⟨known name, held.mp ⟨row, cells⟩ name⟩
  · intro keyed
    obtain ⟨row, cells⟩ := held.mpr fun name => (keyed name).mpr
    exact ⟨row, fun key => (keyed key).mp, cells⟩

/-- Records give the same rows when their entries stand in another order. -/
theorem reads_of_agrees {others : List Record}
    (agree : List.Forall₂ Ordered.Agrees records others)
    (reads : List.Forall₂ (Reads names) records rows) :
    List.Forall₂ (Reads names) others rows := by
  induction agree generalizing rows with
  | nil => exact reads
  | @cons record other _ _ same _ ih =>
    cases reads with
    | cons read later =>
      refine .cons ⟨fun key member => ?_, read.cells.imp fun name cell held => same name ▸ held⟩
        (ih later)
      obtain ⟨cell, held⟩ := Ordered.mem_keys_iff.mp member
      exact read.known key (Ordered.mem_keys_iff.mpr ⟨cell, same key ▸ held⟩)

theorem find_foreign_none :
    (Ordered.keys record).find? (· ∉ names) = none ↔ ∀ key ∈ Ordered.keys record, key ∈ names := by
  simp [List.find?_eq_none]

theorem row_of_record_eq_ok :
    rowOfRecord names place record = .ok row ↔ Reads names record row := by
  rw [rowOfRecord]
  cases found : (Ordered.keys record).find? (· ∉ names) with
  | some name =>
    refine iff_of_false (fun read => by cases read) fun reads => ?_
    rw [find_foreign_none.mpr reads.known] at found
    cases found
  | none =>
    refine (map_m_eq_ok.trans (forall₂_congr fun name cell => ?_)).trans
      ⟨fun cells => ⟨find_foreign_none.mp found, cells⟩, Reads.cells⟩
    cases Ordered.get? name record <;> simp

/-- The cells at some names are refused for the first name that a record lacks. -/
theorem cells_eq_error :
    (names.mapM fun name => match Ordered.get? name record with
      | some cell => Except.ok cell
      | none => .error (TableError.missingColumn place name)) = .error e ↔
      ∃ name, names.find? (· ∉ Ordered.keys record) = some name ∧ e = .missingColumn place name := by
  induction names with
  | nil => simp [pure, Except.pure]
  | cons name rest ih =>
    rw [List.mapM_cons, bind_eq_error, List.find?_cons]
    by_cases held : name ∈ Ordered.keys record
    · obtain ⟨cell, found⟩ := Ordered.mem_keys_iff.mp held
      simpa [found, held, bind_eq_error, pure, Except.pure] using ih
    · have lacks : Ordered.get? name record = none := by
        rw [Option.eq_none_iff_forall_ne_some]
        exact fun cell found => held (Ordered.mem_keys_iff.mpr ⟨cell, found⟩)
      simp [lacks, held, eq_comm]

theorem row_of_record_eq_error :
    rowOfRecord names place record = .error e ↔ Misfit names place record e := by
  rw [rowOfRecord]
  cases found : (Ordered.keys record).find? (· ∉ names) with
  | some name =>
    constructor
    · rintro ⟨⟩
      exact .extra found
    · rintro (first | ⟨known, -⟩)
      · rw [found] at first
        cases first
        rfl
      · rw [find_foreign_none.mpr known] at found
        cases found
  | none =>
    refine cells_eq_error.trans ⟨?_, ?_⟩
    · rintro ⟨name, first, rfl⟩
      exact .missing (find_foreign_none.mp found) first
    · rintro (first | ⟨-, first⟩)
      · rw [found] at first
        cases first
      · exact ⟨_, first, rfl⟩

/-- Reading records is reading them one by one and settling the rows. -/
theorem of_records_eq (records : List Record) :
    ofRecords records = (records.zipIdx.mapM fun numbered =>
      rowOfRecord (namesOf records) numbered.2 numbered.1) >>= ofRows (namesOf records) := by
  cases records <;> rfl

theorem rows_read (names : List String) : (records.zipIdx.mapM fun numbered =>
      rowOfRecord names numbered.2 numbered.1) = .ok rows ↔
    List.Forall₂ (Reads names) records rows := by
  have numbered : List.Forall₂ (fun numbered row => Reads names numbered.1 row)
      records.zipIdx rows ↔ List.Forall₂ (Reads names) records rows := by
    rw [← List.forall₂_map_left_iff, List.zipIdx_map_fst]
  rw [map_m_eq_ok, ← numbered]
  exact forall₂_congr fun _ _ => row_of_record_eq_ok

/-- Reading fails at the first record that cannot be read. -/
theorem rows_refused (names : List String) : (records.zipIdx.mapM fun numbered =>
      rowOfRecord names numbered.2 numbered.1) = .error e ↔
    ∃ before record after, records = before ++ record :: after ∧
      (∀ earlier ∈ before, Keyed names earlier) ∧ Misfit names before.length record e := by
  simp only [map_m_eq_error_iff, row_of_record_eq_ok, row_of_record_eq_error, reads_iff_keyed]
  constructor
  · rintro ⟨numbered, ⟨record, place⟩, later, split, keyed, misfit⟩
    obtain ⟨before, rest, rfl, rfl, behind⟩ := List.zipIdx_eq_append_iff.mp split
    obtain ⟨_, after, rfl, here, -⟩ := List.zipIdx_eq_cons_iff.mp behind.symm
    cases here
    refine ⟨before, record, after, rfl, fun earlier member => ?_, by simpa using misfit⟩
    rw [← List.zipIdx_map_fst 0 before] at member
    obtain ⟨pair, inside, rfl⟩ := List.mem_map.mp member
    exact keyed pair inside
  · rintro ⟨before, record, after, rfl, keyed, misfit⟩
    refine ⟨before.zipIdx, (record, before.length), after.zipIdx (before.length + 1), ?_,
      fun pair inside => keyed _ (List.fst_mem_of_mem_zipIdx inside), misfit⟩
    rw [List.zipIdx_append, List.zipIdx_cons, Nat.zero_add]

/-- The cells of a column settle as its kind says. -/
theorem settles_shared (cells : List Cell) :
    Settles cells ((sharedKind cells).getD .text) (cells.map (settle (sharedKind cells))) := by
  cases cells with
  | nil => exact .alike nofun
  | cons first rest =>
    rw [sharedKind]
    split
    · rename_i same
      have kept : (first :: rest).map (settle (some first.kind)) = first :: rest := List.map_id _
      rw [kept]
      refine .alike (List.forall_mem_cons.mpr ⟨rfl, fun cell member => ?_⟩)
      exact of_decide_eq_true (List.all_eq_true.mp same cell member)
    · rename_i differ
      simp only [List.all_eq_true, decide_eq_true_eq, not_forall] at differ
      obtain ⟨cell, member, apart⟩ := differ
      exact .mixed ⟨cell, List.mem_cons_of_mem _ member, first, List.mem_cons_self, apart⟩

/-- Rows of the right length under different names make a table, each column of
which is settled by itself. -/
theorem of_rows_settles (distinct : names.Nodup) (fit : ∀ row ∈ rows, row.length = names.length) :
    ∃ t, ofRows names rows = .ok t ∧ t.columns = names ∧ t.height = rows.length ∧
      ∀ c < names.length, Settles (rows.map (Row.at · c)) (t.kind c) (t.column c) := by
  refine ⟨_, of_rows_eq distinct fit, rfl, by simp [height], fun c inside => ?_⟩
  convert settles_shared (rows.map (Row.at · c)) using 1
  · simp [kind, inside]
  · rw [column, List.map_map, List.map_map]
    refine List.map_congr_left fun row member => ?_
    have bound : c < row.length := (fit row member).symm ▸ inside
    simp only [Function.comp_apply, Row.at, List.getD_eq_getElem?_getD, List.getElem?_zipWith,
      List.getElem?_map, List.getElem?_range inside, List.getElem?_eq_getElem bound,
      Option.map_some, Option.getD_some]

/-- Records whose rows can be read make a table of their cells. -/
theorem made_of_reads (distinct : (namesOf records).Nodup)
    (reads : List.Forall₂ (Reads (namesOf records)) records rows) :
    ∃ t, ofRecords records = .ok t ∧ MadeOf records t := by
  have fit : ∀ row ∈ rows, row.length = (namesOf records).length := fun row member => by
    obtain ⟨record, -, read⟩ := forall₂_exists_left reads member
    exact read.cells.length_eq.symm
  obtain ⟨t, built, named, high, settles⟩ := of_rows_settles distinct fit
  have width : t.width = (namesOf records).length := by rw [Table.width, named]
  refine ⟨t, ?_, of_rows_well_formed built, named, high.trans reads.length_eq.symm, ?_⟩
  · rw [of_records_eq, (rows_read _).mpr reads, ok_bind, built]
  · intro c inside
    have inside := width ▸ inside
    refine ⟨_, List.forall₂_map_right_iff.mpr (reads.imp fun record row read => ?_), settles c inside⟩
    have name : t.name c = (namesOf records)[c] := by
      rw [Table.name, named, List.getD_eq_getElem _ _ inside]
    have bound : c < row.length := read.cells.length_eq ▸ inside
    rw [name, Row.at, List.getD_eq_getElem _ _ bound]
    exact (List.forall₂_iff_get.mp read.cells).2 c inside bound

theorem of_records_eq_ok : ofRecords records = .ok t ↔ ∃ rows,
    List.Forall₂ (Reads (namesOf records)) records rows ∧ ofRows (namesOf records) rows = .ok t := by
  rw [of_records_eq, bind_eq_ok]
  exact exists_congr fun rows => and_congr_left fun _ => rows_read _

theorem made_of_records (distinct : (namesOf records).Nodup) (made : ofRecords records = .ok t) :
    MadeOf records t := by
  obtain ⟨rows, reads, -⟩ := of_records_eq_ok.mp made
  obtain ⟨t', made', holds⟩ := made_of_reads distinct reads
  rw [made] at made'
  cases made'
  exact holds

/-- The entries of later records may stand in any order. -/
theorem of_records_agrees {others : List Record} (made : ofRecords records = .ok t)
    (first : others.head? = records.head?) (agree : List.Forall₂ Ordered.Agrees records others) :
    ofRecords others = .ok t := by
  obtain ⟨rows, reads, built⟩ := of_records_eq_ok.mp made
  have names : namesOf others = namesOf records := by rw [namesOf, first, namesOf]
  refine of_records_eq_ok.mpr ⟨rows, ?_, names ▸ built⟩
  rw [names]
  exact reads_of_agrees agree reads

theorem of_records_ok_iff (distinct : (namesOf records).Nodup) :
    (∃ t, ofRecords records = .ok t) ↔ ∀ record ∈ records, Keyed (namesOf records) record := by
  simp only [← reads_iff_keyed, ← exists_forall₂_iff]
  constructor
  · rintro ⟨t, made⟩
    obtain ⟨rows, reads, -⟩ := of_records_eq_ok.mp made
    exact ⟨rows, reads⟩
  · rintro ⟨rows, reads⟩
    obtain ⟨t, made, -⟩ := made_of_reads distinct reads
    exact ⟨t, made⟩

/-- Once all rows can be read nothing else is refused. -/
theorem of_records_error_iff (distinct : (namesOf records).Nodup) : ofRecords records = .error e ↔
    ∃ before record after, records = before ++ record :: after ∧
      (∀ earlier ∈ before, Keyed (namesOf records) earlier) ∧
        Misfit (namesOf records) before.length record e := by
  rw [of_records_eq, bind_eq_error, rows_refused, or_iff_left]
  rintro ⟨rows, read, failed⟩
  obtain ⟨t, made, -⟩ := made_of_reads distinct ((rows_read _).mp read)
  rw [of_records_eq, read, ok_bind, failed] at made
  cases made

/-- **Records with the same keys, and no others, are tables.** A list of records
makes a table just when every record has the keys of the first. The table has
these keys as its names and in each column the cells at its name, or their texts
where they are of more than one kind, and it stays the same when the entries of
later records are put in another order. Any other list is refused for the first
record with other keys, for its first key that is new, or else for the first name
that it lacks; never for a name that repeats or for the length of a row. -/
theorem of_records_iff_uniform (maps : ∀ record ∈ records, (Ordered.keys record).Nodup) :
    ((∃ t, ofRecords records = .ok t) ↔ ∀ record ∈ records, Keyed (namesOf records) record) ∧
      (∀ t, ofRecords records = .ok t → MadeOf records t ∧
        ∀ others, others.head? = records.head? → List.Forall₂ Ordered.Agrees records others →
          ofRecords others = .ok t) ∧
      (∀ e, ofRecords records = .error e ↔
        ∃ before record after, records = before ++ record :: after ∧
          (∀ earlier ∈ before, Keyed (namesOf records) earlier) ∧
            Misfit (namesOf records) before.length record e) ∧
      (∀ name, ofRecords records ≠ .error (.duplicateColumn name)) ∧
      ∀ place expected found, ofRecords records ≠ .error (.rowLength place expected found) := by
  have distinct : (namesOf records).Nodup := by
    cases records with
    | nil => exact List.nodup_nil
    | cons first rest => exact maps first List.mem_cons_self
  refine ⟨of_records_ok_iff distinct, fun t made => ⟨made_of_records distinct made, ?_⟩,
    fun e => of_records_error_iff distinct, fun name failed => ?_,
    fun place expected found failed => ?_⟩
  · exact fun others first agree => of_records_agrees made first agree
  · obtain ⟨_, _, _, -, -, misfit⟩ := (of_records_error_iff distinct).mp failed
    cases misfit
  · obtain ⟨_, _, _, -, -, misfit⟩ := (of_records_error_iff distinct).mp failed
    cases misfit

/-- Two days, the second of them with a note in place of a number. -/
def visits : List Record :=
  [[("day", .text "mon"), ("count", .number 2)], [("count", .text "closed"), ("day", .text "tue")]]

/-- The counts become texts, and a third day needs a count too. -/
theorem of_records_iff_uniform_visits :
    (∃ t, ofRecords visits = .ok t ∧ MadeOf visits t ∧
      t.columns = ["day", "count"] ∧ t.column 1 = [.text "2", .text "closed"]) ∧
    ofRecords (visits ++ [[("day", .text "wed")]]) = .error (.missingColumn 2 "count") := by
  have maps : ∀ record ∈ visits ++ [[("day", .text "wed")]], (Ordered.keys record).Nodup := by decide
  constructor
  · have mapsSoFar : ∀ record ∈ visits, (Ordered.keys record).Nodup :=
      fun record member => maps record (List.mem_append_left _ member)
    obtain ⟨-, made, -⟩ := of_records_iff_uniform mapsSoFar
    have table : (ofRecords visits).map (fun t => (t.columns, t.column 1)) =
        .ok (["day", "count"], [.text "2", .text "closed"]) := by decide +kernel
    obtain ⟨t, built, shown⟩ := map_eq_ok.mp table
    obtain ⟨names, counts⟩ := Prod.mk.inj shown
    exact ⟨t, built, (made t built).1, names, counts⟩
  · refine ((of_records_iff_uniform maps).2.2.1 _).mpr ⟨visits, _, [], rfl, ?_, .missing ?_ rfl⟩
    · have sorted : ∀ earlier ∈ visits, (Ordered.keys earlier).Perm ["day", "count"] := by decide
      exact fun earlier member name => (sorted earlier member).mem_iff
    · decide

end Table
end Reshape
