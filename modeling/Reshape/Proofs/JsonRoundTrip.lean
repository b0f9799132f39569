import Reshape.Json.Token
import Reshape.Proofs.FiniteNumbers
import Reshape.Proofs.Records

/-! Tables as JSON and back. Only numbers that are not finite are lost on the
way: they are written as null, which stands for no cell, and the first of them
is what reading complains about. A table that was read has none, since JSON has
no word for them. -/
namespace Reshape

/-- The numbers that JSON values can hold: whole numbers of 64 bits, with a sign
or without, and finite ones. -/
inductive Json.Bounded : Json → Prop where
  | null : Bounded .null
  | boolean (value : Bool) : Bounded (.boolean value)
  | integer {value : Int} (low : -(mostNegative : Int) ≤ value) (high : value ≤ largestWord) :
    Bounded (.integer value)
  | decimal {value : Float} (finite : value.isFinite = true) : Bounded (.decimal value)
  | text (value : String) : Bounded (.text value)
  | list {items : List Json} (each : ∀ item ∈ items, Bounded item) : Bounded (.list items)
  | object {fields : List (String × Json)} (each : ∀ field ∈ fields, Bounded field.2) :
    Bounded (.object fields)

namespace Cell

/-- Whether JSON can hold what is in a cell: a number has to be finite. -/
def isFinite : Cell → Bool
  | .number x => x.isFinite
  | _ => true

theorem of_json_to_json (cell : Cell) :
    ofJson? cell.toJson = if cell.isFinite then some cell else none := by
  cases cell with
  | text s => rfl
  | boolean b => rfl
  | number x => cases finite : x.isFinite <;> simp [toJson, isFinite, finite, ofJson?]

theorem write_to_json {cell : Cell} (beyond : cell.isFinite = false) :
    cell.toJson.write = "null" := by
  cases cell with
  | text s => cases beyond
  | boolean b => cases beyond
  | number x =>
    rw [toJson, if_neg (by simpa [isFinite] using beyond)]
    rfl

/-- The cells of JSON values are finite. -/
theorem of_json_finite {value : Json} (bounded : value.Bounded) {cell : Cell}
    (made : ofJson? value = some cell) : cell.isFinite = true := by
  cases bounded with
  | null | list each | object each => cases made
  | boolean b | text s =>
    cases made
    rfl
  | decimal finite =>
    cases made
    exact finite
  | integer low high =>
    cases made
    refine Number.of_int_finite ?_
    simp only [Json.mostNegative, Json.largestWord] at low high
    omega

end Cell

/-- Where each element comes back unless it has a fault, the list does unless one
of them has, and the first fault is the one reported. -/
theorem map_m_fault {ε α γ : Type} {f : α → Except ε α} {fault : α → Option γ} {refuse : γ → ε}
    {l : List α}
    (each : ∀ a ∈ l, f a = (fault a).elim (.ok a) fun c => .error (refuse c)) :
    l.mapM f = (l.findSome? fault).elim (.ok l) fun c => .error (refuse c) := by
  induction l with
  | nil => rfl
  | cons a rest ih =>
    obtain ⟨here, later⟩ := List.forall_mem_cons.mp each
    rw [List.mapM_cons, here, ih later, List.findSome?_cons]
    cases fault a with
    | some c => rfl
    | none => cases rest.findSome? fault <;> rfl

namespace Table

variable {t : Table}

/-- A field of a JSON object as an entry of a record. -/
def entryOfField (field : String × Json) : Except TableError (String × Cell) :=
  match Cell.ofJson? field.2 with
  | some cell => .ok (field.1, cell)
  | none => .error (.unsupportedValue field.1 field.2.write)

theorem record_of_object (fields : List (String × Json)) : recordOfJson (.object fields) =
    fields.mapM entryOfField >>= fun pairs => .ok (Ordered.ofPairs pairs) := rfl

/-- What reading says of an entry whose cell JSON cannot hold. -/
def unheld (entry : String × Cell) : TableError := .unsupportedValue entry.1 "null"

theorem entry_of_written (entry : String × Cell) : entryOfField (entry.1, entry.2.toJson) =
    if entry.2.isFinite then .ok entry else .error (unheld entry) := by
  rw [entryOfField, Cell.of_json_to_json]
  cases finite : entry.2.isFinite with
  | true => rfl
  | false => exact congrArg _ (congrArg _ (Cell.write_to_json finite))

/-- A record with different names comes back from its object, or the first entry
that JSON cannot hold is refused. -/
theorem record_of_written {record : Record} (different : (Ordered.keys record).Nodup) :
    recordOfJson (.object (record.map fun (column, cell) => (column, cell.toJson))) =
      (record.find? (!·.2.isFinite)).elim (.ok record) fun entry => .error (unheld entry) := by
  have read : (record.map fun (column, cell) => (column, cell.toJson)).mapM entryOfField =
      (record.find? (!·.2.isFinite)).elim (.ok record) fun entry => .error (unheld entry) := by
    rw [List.mapM_map, List.find?_eq_findSome?_guard]
    refine map_m_fault fun entry _ => (entry_of_written entry).trans ?_
    cases finite : entry.2.isFinite <;> simp [finite, Option.guard]
  rw [record_of_object, read]
  cases record.find? (!·.2.isFinite) with
  | some entry => rfl
  | none => exact congrArg Except.ok (Ordered.of_pairs_distinct different)

/-- Every cell under its column's name, row by row. -/
def entries (t : Table) : List (String × Cell) := t.rows.flatMap (t.columns.zip ·)

theorem cells_of_entries (ok : t.WellFormed) : t.entries.map (·.2) = t.cells := by
  rw [entries, List.map_flatMap, cells, ← List.flatMap_id]
  exact List.flatMap_congr fun row member =>
    List.map_snd_zip (Nat.le_of_eq (ok.shaped.row_length member))

/-- A well-formed table with rows comes back from JSON, or the first cell that
JSON cannot hold is refused. -/
theorem of_json_to_json (ok : t.WellFormed) (rows : t.rows ≠ []) :
    ofJson t.toJson =
      (t.entries.find? (!·.2.isFinite)).elim (.ok t) fun entry => .error (unheld entry) := by
  have read : ((t.records.map fun record => Json.object
        (record.map fun (column, cell) => (column, cell.toJson))).mapM recordOfJson) =
      (t.entries.find? (!·.2.isFinite)).elim (.ok t.records)
        fun entry => .error (unheld entry) := by
    -- row by row, the first faulty entry of all is that of the first faulty record
    rw [entries, List.flatMap, ← records_eq ok, List.find?_flatten, List.mapM_map]
    refine map_m_fault fun record member => ?_
    rw [records_eq ok] at member
    obtain ⟨row, held, rfl⟩ := List.mem_map.mp member
    exact record_of_written ((keys_zip (ok.shaped.row_length held)).symm ▸ ok.distinct)
  rw [toJson, ofJson, read]
  cases t.entries.find? (!·.2.isFinite) with
  | some entry => rfl
  | none => exact of_records_records ok rows

theorem of_json_to_json_finite (ok : t.WellFormed) (rows : t.rows ≠ [])
    (finite : ∀ cell ∈ t.cells, cell.isFinite = true) : ofJson t.toJson = .ok t := by
  have none : t.entries.find? (!·.2.isFinite) = none :=
    List.find?_eq_none.mpr fun entry member => by
      simpa using finite entry.2 (cells_of_entries ok ▸ List.mem_map_of_mem member)
  rw [of_json_to_json ok rows, none]
  rfl

theorem of_json_to_json_refused (ok : t.WellFormed) (rows : t.rows ≠ [])
    (beyond : ∃ cell ∈ t.cells, cell.isFinite = false) : ∃ column cell,
      t.entries.find? (!·.2.isFinite) = some (column, cell) ∧
        ofJson t.toJson = .error (.unsupportedValue column "null") := by
  obtain ⟨cell, member, beyond⟩ := beyond
  rw [← cells_of_entries ok] at member
  obtain ⟨entry, listed, rfl⟩ := List.mem_map.mp member
  have some : (t.entries.find? (!·.2.isFinite)).isSome :=
    List.find?_isSome.mpr ⟨entry, listed, by rw [beyond]; rfl⟩
  obtain ⟨⟨column, first⟩, found⟩ := Option.isSome_iff_exists.mp some
  refine ⟨column, first, found, ?_⟩
  rw [of_json_to_json ok rows, found]
  rfl

/-- The cells of a record that was read are finite. -/
theorem record_finite {item : Json} (bounded : item.Bounded) {record : Record}
    (read : recordOfJson item = .ok record) {entry : String × Cell} (member : entry ∈ record) :
    entry.2.isFinite = true := by
  cases bounded with
  | object each =>
    rw [record_of_object] at read
    obtain ⟨pairs, fields, made⟩ := bind_eq_ok.mp read
    cases made
    obtain ⟨field, given, found⟩ :=
      forall₂_exists_left (map_m_eq_ok.mp fields) (Ordered.mem_of_pairs member)
    rw [entryOfField] at found
    split at found
    · rename_i cell standsFor
      cases found
      exact Cell.of_json_finite (each field given) standsFor
    · cases found
  | _ => cases read

/-- The cells of a table that was read are finite. -/
theorem of_json_cells_finite {json : Json} (bounded : json.Bounded) (made : ofJson json = .ok t) :
    ∀ cell ∈ t.cells, cell.isFinite = true := by
  intro cell member
  cases cell with
  | text s => rfl
  | boolean b => rfl
  | number x =>
    cases bounded with
    | list each =>
      obtain ⟨records, read, built⟩ := bind_eq_ok.mp made
      obtain ⟨record, given, column, held⟩ := number_of_records built member
      obtain ⟨item, listed, found⟩ := forall₂_exists_left (map_m_eq_ok.mp read) given
      exact record_finite (each item listed) found held
    | _ => cases made

theorem of_json_to_json_of_json {items : List Json} (some : items ≠ [])
    (bounded : (Json.list items).Bounded) (made : ofJson (.list items) = .ok t) :
    ofJson t.toJson = .ok t := by
  obtain ⟨records, read, built⟩ := bind_eq_ok.mp made
  have height : t.height = items.length :=
    (height_of_records built).trans (map_m_eq_ok.mp read).length_eq.symm
  have rows : t.rows ≠ [] :=
    List.ne_nil_of_length_pos (height ▸ List.length_pos_of_ne_nil some : 0 < t.height)
  exact of_json_to_json_finite (of_records_well_formed built) rows
    (of_json_cells_finite bounded made)

/-- **Records and JSON are read back.** A well-formed table with rows comes back
from its records, and from JSON if all its numbers are finite; if some are not,
the first of them, row by row, is refused. So a table that was read from a list
of records comes back from what it is written as. -/
theorem records_and_json_read_back :
    (∀ t : Table, t.WellFormed → t.rows ≠ [] →
      ofRecords t.records = .ok t ∧
      ((∀ cell ∈ t.cells, cell.isFinite = true) → ofJson t.toJson = .ok t) ∧
      ((∃ cell ∈ t.cells, cell.isFinite = false) → ∃ column cell,
        t.entries.find? (!·.2.isFinite) = some (column, cell) ∧
        ofJson t.toJson = .error (.unsupportedValue column "null"))) ∧
    ∀ (items : List Json) (t : Table), items ≠ [] → (Json.list items).Bounded →
      ofJson (.list items) = .ok t → ofJson t.toJson = .ok t :=
  ⟨fun _ ok rows => ⟨of_records_records ok rows, of_json_to_json_finite ok rows,
    of_json_to_json_refused ok rows⟩,
  fun _ _ some bounded made => of_json_to_json_of_json some bounded made⟩

namespace Readings

/-- The sign of a zero is kept. -/
def complete : Table where
  columns := ["city", "degrees", "dry"]
  kinds := [.text, .number, .boolean]
  rows := [[.text "Bern", .number 12.5, .boolean true],
    [.text "Oslo", .number (-0.0), .boolean false]]

/-- Row by row, the infinite number comes first. -/
def broken : Table where
  columns := ["low", "high"]
  kinds := [.number, .number]
  rows := [[.number 3, .number (1 / 0)], [.number (0 / 0), .number 5]]

/-- A column of mixed kinds, and a record with its fields the other way round. -/
def listed : List Json :=
  [.object [("city", .text "Bern"), ("degrees", .integer 12)],
    .object [("degrees", .text "unknown"), ("city", .text "Oslo")]]

/-- The table that the list stands for. -/
def settled : Table where
  columns := ["city", "degrees"]
  kinds := [.text, .text]
  rows := [[.text "Bern", .text "12"], [.text "Oslo", .text "unknown"]]

end Readings

open Readings in
theorem records_and_json_read_back_readings :
    ofRecords complete.records = .ok complete ∧ ofJson complete.toJson = .ok complete ∧
      ofJson broken.toJson = .error (.unsupportedValue "high" "null") ∧
      ofJson (.list listed) = .ok settled ∧ ofJson settled.toJson = .ok settled := by
  have ok : complete.WellFormed := ⟨by decide, rfl, by decide⟩
  have ok' : broken.WellFormed := ⟨by decide, rfl, by decide⟩
  have first : broken.entries.find? (!·.2.isFinite) = some ("high", .number (1 / 0)) := by
    decide +kernel
  have bounded : (Json.list listed).Bounded := by
    refine .list fun item member => ?_
    fin_cases member
    all_goals
      refine .object fun field member => ?_
      fin_cases member
    exacts [.text _, .integer (by decide) (by decide), .text _, .text _]
  have read : ofJson (.list listed) = .ok settled := by decide +kernel
  obtain ⟨back, again⟩ := records_and_json_read_back
  obtain ⟨records, written, -⟩ := back complete ok (by decide)
  obtain ⟨-, -, refused⟩ := back broken ok' (by decide)
  obtain ⟨column, cell, found, error⟩ := refused (by decide +kernel)
  obtain ⟨rfl, -⟩ := Prod.mk.inj (Option.some.inj (first.symm.trans found))
  exact ⟨records, written (by decide +kernel), error, read,
    again listed settled (by decide) bounded read⟩

end Table
end Reshape
