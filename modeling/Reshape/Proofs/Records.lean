import Reshape.Proofs.Origins
import Reshape.Proofs.WellFormedness
import Reshape.Table.Records

/-! Tables as records and back. A record whose keys differ keeps every pair as it
was written, so each row comes back from its record; and the kinds of a table
with rows can be told from its cells. The other way, a number in a table that is
made of records is one of theirs. -/
namespace Reshape

namespace Ordered

variable {κ α : Type} [DecidableEq κ] {key : κ} {value : α} {entries pairs : List (κ × α)}

theorem put_new (new : key ∉ keys entries) : put key value entries = entries ++ [(key, value)] := by
  induction entries with
  | nil => rfl
  | cons entry rest ih =>
    obtain ⟨apart, new⟩ := not_or.mp (mt List.mem_cons.mpr new)
    rw [put, alter, if_neg (Ne.symm apart)]
    exact congrArg (entry :: ·) (ih new)

/-- Pairs with new and different keys come to stand behind the others. -/
theorem put_all_new (different : (keys (entries ++ pairs)).Nodup) :
    pairs.foldl (fun entries (key, value) => put key value entries) entries = entries ++ pairs := by
  induction pairs generalizing entries with
  | nil => exact (List.append_nil _).symm
  | cons pair rest ih =>
    obtain ⟨key, value⟩ := pair
    have new : key ∉ keys entries := by
      rw [keys, List.map_append] at different
      exact fun again => (List.nodup_append.mp different).2.2 _ again _ List.mem_cons_self rfl
    calc rest.foldl (fun entries (key, value) => put key value entries) (put key value entries)
        = rest.foldl (fun entries (key, value) => put key value entries)
            (entries ++ [(key, value)]) := by rw [put_new new]
      _ = entries ++ [(key, value)] ++ rest := ih (by simpa using different)
      _ = entries ++ (key, value) :: rest := List.append_cons .. |>.symm

/-- Pairs with different keys are a map as they stand. -/
theorem of_pairs_distinct (different : (keys pairs).Nodup) : ofPairs pairs = pairs :=
  put_all_new different

theorem get_eq_some (different : (keys entries).Nodup) (member : (key, value) ∈ entries) :
    get? key entries = some value := by
  induction entries with
  | nil => cases member
  | cons entry rest ih =>
    obtain ⟨new, different⟩ := List.nodup_cons.mp different
    rcases List.mem_cons.mp member with rfl | later
    · exact if_pos rfl
    · have held : key ∈ keys rest := List.mem_map_of_mem later
      have apart : entry.1 ≠ key := fun same => new (same.symm ▸ held :)
      rw [get?, if_neg apart, ih different later]

theorem mem_of_get (found : get? key entries = some value) : (key, value) ∈ entries := by
  induction entries with
  | nil => cases found
  | cons entry rest ih =>
    rw [get?] at found
    split at found
    · rename_i same
      cases found
      exact same ▸ List.mem_cons_self
    · exact List.mem_cons_of_mem _ (ih found)

theorem mem_keys_iff : key ∈ keys entries ↔ ∃ value, get? key entries = some value := by
  induction entries with
  | nil => simp [keys, get?]
  | cons entry rest ih =>
    obtain ⟨k, value⟩ := entry
    rw [get?, keys, List.map_cons, List.mem_cons]
    by_cases same : k = key
    · simp [same]
    · rw [if_neg same, ← ih, or_iff_right (Ne.symm same), keys]

theorem keys_alter (key : κ) (change : Option α → α) (entries : List (κ × α)) :
    keys (alter key change entries) =
      if key ∈ keys entries then keys entries else keys entries ++ [key] := by
  induction entries with
  | nil => rfl
  | cons entry rest ih =>
    obtain ⟨k, a⟩ := entry
    unfold alter
    by_cases same : k = key
    · simp [same, keys]
    · have apart : key ≠ k := Ne.symm same
      simp only [keys, List.map_cons, List.mem_cons, if_neg same, apart, false_or] at ih ⊢
      rw [ih]
      by_cases held : key ∈ rest.map (·.1) <;> simp [held]

/-- Changing a map at a key adds that key at most. -/
theorem mem_keys_alter {other : κ} {change : Option α → α} :
    other ∈ keys (alter key change entries) ↔ other = key ∨ other ∈ keys entries := by
  rw [keys_alter]
  split
  · rename_i held
    exact (or_iff_right_of_imp fun same => same ▸ held).symm
  · rw [List.mem_append, List.mem_singleton]
    exact or_comm

/-- A change keeps keys different. -/
theorem keys_alter_nodup (distinct : (keys entries).Nodup) (key : κ)
    (change : Option α → α) : (keys (alter key change entries)).Nodup := by
  rw [keys_alter]
  split
  · exact distinct
  · rename_i new
    refine List.nodup_append.mpr ⟨distinct, List.nodup_singleton key, ?_⟩
    rintro k held last added rfl
    exact new (List.mem_singleton.mp added ▸ held)

theorem get_alter (key other : κ) (change : Option α → α) (entries : List (κ × α)) :
    get? other (alter key change entries) =
      if key = other then some (change (get? key entries)) else get? other entries := by
  induction entries with
  | nil => rfl
  | cons entry rest ih =>
    obtain ⟨k, a⟩ := entry
    unfold alter
    by_cases same : k = key
    · subst same
      by_cases found : k = other <;> simp [get?, found]
    · rw [if_neg same, get?, ih, get?, get?, if_neg same]
      by_cases found : k = other
      · have apart : key ≠ other := fun equal => same (found.trans equal.symm)
        simp [found, apart]
      · rw [if_neg found, if_neg found]

/-- A map that gives each of its keys a value of its own. -/
theorem get_map (f : κ → α) (l : List κ) (key : κ) :
    get? key (l.map fun k => (k, f k)) = if key ∈ l then some (f key) else none := by
  induction l with
  | nil => rfl
  | cons k rest ih =>
    rw [List.map_cons, get?, ih]
    by_cases same : k = key
    · simp [same]
    · simp [same, Ne.symm same]

theorem mem_of_put {pair : κ × α} (member : pair ∈ put key value entries) :
    pair = (key, value) ∨ pair ∈ entries := by
  induction entries with
  | nil => exact .inl (List.mem_singleton.mp member)
  | cons entry rest ih =>
    rw [put, alter] at member
    split at member
    · rename_i same
      exact (List.mem_cons.mp member).imp (same ▸ ·) (List.mem_cons_of_mem _)
    · rcases List.mem_cons.mp member with rfl | later
      · exact .inr List.mem_cons_self
      · exact (ih later).imp_right (List.mem_cons_of_mem _)

theorem mem_of_put_all {pair : κ × α}
    (member : pair ∈ pairs.foldl (fun entries (key, value) => put key value entries) entries) :
    pair ∈ entries ∨ pair ∈ pairs := by
  induction pairs generalizing entries with
  | nil => exact .inl member
  | cons first rest ih =>
    rcases ih member with before | later
    · rcases mem_of_put before with rfl | before
      · exact .inr List.mem_cons_self
      · exact .inl before
    · exact .inr (List.mem_cons_of_mem _ later)

/-- A map holds only what was written. -/
theorem mem_of_pairs {pair : κ × α} (member : pair ∈ ofPairs pairs) : pair ∈ pairs :=
  (mem_of_put_all member).resolve_left List.not_mem_nil

end Ordered

namespace Table

variable {t : Table} {columns : List String} {row : Row}

theorem keys_zip (fits : row.length = columns.length) :
    Ordered.keys (columns.zip row) = columns :=
  List.map_fst_zip (Nat.le_of_eq fits.symm)

theorem row_of_record_zip (distinct : columns.Nodup) (fits : row.length = columns.length)
    (i : Nat) : rowOfRecord columns i (columns.zip row) = .ok row := by
  have different : (Ordered.keys (columns.zip row)).Nodup := (keys_zip fits).symm ▸ distinct
  have known : (Ordered.keys (columns.zip row)).find? (· ∉ columns) = none := by
    rw [keys_zip fits]
    simp
  rw [rowOfRecord, known]
  refine map_m_eq_ok.mpr (List.forall₂_iff_zip.mpr ⟨fits.symm, fun {column cell} member => ?_⟩)
  rw [Ordered.get_eq_some different member]

/-- The kind of a column with cells. -/
theorem shared_kind_of_all {cells : List Cell} {kind : Kind} (some : cells ≠ [])
    (all : ∀ cell ∈ cells, cell.kind = kind) : sharedKind cells = .some kind := by
  cases cells with
  | nil => exact absurd rfl some
  | cons first rest =>
    obtain ⟨rfl, same⟩ := List.forall_mem_cons.mp all
    exact if_pos (List.all_eq_true.mpr fun cell later => decide_eq_true (same cell later))

/-- Nothing has to be settled where each column has its kind. -/
theorem zip_with_settle {kinds : List Kind} (fits : row.length = kinds.length) :
    List.zipWith settle (kinds.map some) row = row := by
  refine List.ext_getElem (by simp [fits]) fun c bound inside => ?_
  simp [settle]

/-- Different names and rows of their length are a table, whose columns have the
kinds of their cells. -/
theorem of_rows_eq {columns : List String} {rows : List Row} (distinct : columns.Nodup)
    (fit : ∀ row ∈ rows, row.length = columns.length) :
    let kinds := (List.range columns.length).map fun c => sharedKind (rows.map (Row.at · c))
    ofRows columns rows =
      .ok ⟨columns, kinds.map (·.getD .text), rows.map fun row => List.zipWith settle kinds row⟩ := by
  have new : firstRepeat id [] columns = none :=
    first_repeat_of_distinct (by simpa using distinct) fun _ _ => List.not_mem_nil
  simp only [ofRows, new]
  split
  · rename_i row i misfit
    have fits := fit row (List.fst_mem_of_mem_zipIdx (List.mem_of_find?_eq_some misfit))
    exact absurd fits (by simpa using List.find?_some misfit)
  · rfl

/-- **A table with rows can be told from its names and cells.** -/
theorem of_rows_self (ok : t.WellFormed) (rows : t.rows ≠ []) :
    ofRows t.columns t.rows = .ok t := by
  have kinds : ((List.range t.columns.length).map fun c => sharedKind (t.rows.map (Row.at · c))) =
      t.kinds.map some := by
    refine List.ext_getElem (by simp [ok.typed]) fun c _ bound => ?_
    have inside : c < t.kinds.length := by simpa using bound
    simp only [List.getElem_map, List.getElem_range]
    refine shared_kind_of_all (by simpa using rows) fun cell stands => ?_
    obtain ⟨row, member, rfl⟩ := List.mem_map.mp stands
    rw [ok.shaped.kind_at member]
    exact List.getD_eq_getElem _ _ inside
  have settled : t.rows.map (List.zipWith settle (t.kinds.map some)) = t.rows :=
    (List.map_congr_left fun row member =>
      zip_with_settle ((ok.shaped.row_length member).trans ok.typed.symm)).trans (List.map_id _)
  rw [of_rows_eq ok.distinct fun row member => ok.shaped.row_length member, kinds, settled]
  simp only [List.map_map, Function.comp_def, Option.getD_some, List.map_id']

/-- The records of a well-formed table have its names and the cells of its rows. -/
theorem records_eq (ok : t.WellFormed) : t.records = t.rows.map (t.columns.zip ·) :=
  List.map_congr_left fun _ member => Ordered.of_pairs_distinct <| by
    rw [keys_zip (ok.shaped.row_length member)]
    exact ok.distinct

/-- The first record gives the names, whatever the others are. -/
theorem of_records_cons (first : Record) (rest : List Record) :
    ofRecords (first :: rest) =
      (first :: rest).zipIdx.mapM (fun numbered =>
        rowOfRecord (Ordered.keys first) numbered.2 numbered.1) >>=
      ofRows (Ordered.keys first) := rfl

/-- **A table with rows comes back from its records.** -/
theorem of_records_records (ok : t.WellFormed) (rows : t.rows ≠ []) :
    ofRecords t.records = .ok t := by
  have read : (t.records.zipIdx.mapM fun numbered =>
      rowOfRecord t.columns numbered.2 numbered.1) = .ok t.rows := by
    rw [records_eq ok, List.zipIdx_map, List.mapM_map]
    refine (map_m_ok (g := Prod.fst) fun numbered member => ?_).trans ?_
    · exact row_of_record_zip ok.distinct
        (ok.shaped.row_length (List.fst_mem_of_mem_zipIdx member)) _
    · rw [List.zipIdx_map_fst]
  obtain ⟨row, more, given⟩ := List.exists_cons_of_ne_nil rows
  have names : Ordered.keys (t.columns.zip row) = t.columns :=
    keys_zip (ok.shaped.row_length (given ▸ List.mem_cons_self))
  have records : t.records = t.columns.zip row :: more.map (t.columns.zip ·) := by
    rw [records_eq ok, given, List.map_cons]
  -- the columns are read off the first record, so the rows have to show one
  rw [records] at read ⊢
  rw [of_records_cons, names, read]
  exact of_rows_self ok rows

/-- The rows of a table that is built are those given, settled column by column. -/
theorem rows_of_rows {given : List Row} (built : ofRows columns given = .ok t) :
    ∃ kinds, t.rows = given.map (List.zipWith settle kinds) := by
  rw [ofRows] at built
  split at built
  · cases built
  · split at built
    · cases built
    · cases built
      exact ⟨_, rfl⟩

theorem of_records_well_formed {records : List Record} (made : ofRecords records = .ok t) :
    t.WellFormed := by
  obtain ⟨rows, -, built⟩ := bind_eq_ok.mp made
  exact of_rows_well_formed built

/-- Each row of a table that is made of records is one record's, its cells
settled column by column. -/
theorem rows_of_records {records : List Record} (made : ofRecords records = .ok t) :
    ∃ columns kinds, List.Forall₂ (fun numbered row =>
      ∃ given, rowOfRecord columns numbered.2 numbered.1 = .ok given ∧
        row = List.zipWith settle kinds given) records.zipIdx t.rows := by
  unfold ofRecords at made
  obtain ⟨given, read, built⟩ := bind_eq_ok.mp made
  obtain ⟨kinds, rows⟩ := rows_of_rows built
  rw [rows]
  exact ⟨_, kinds, List.forall₂_map_right_iff.mpr <|
    (map_m_eq_ok.mp read).imp fun _ row found => ⟨row, found, rfl⟩⟩

/-- There is a row for each record. -/
theorem height_of_records {records : List Record} (made : ofRecords records = .ok t) :
    t.height = records.length := by
  obtain ⟨_, _, rows⟩ := rows_of_records made
  rw [height, ← rows.length_eq, List.length_zipIdx]

/-- What a record gives to a row stands in the record. -/
theorem mem_of_row_of_record {i : Nat} {record : Record}
    (found : rowOfRecord columns i record = .ok row) {cell : Cell} (member : cell ∈ row) :
    ∃ column, (column, cell) ∈ record := by
  rw [rowOfRecord] at found
  split at found
  · cases found
  · obtain ⟨column, -, taken⟩ := forall₂_exists_left (map_m_eq_ok.mp found) member
    split at taken
    · rename_i held
      cases taken
      exact ⟨column, Ordered.mem_of_get held⟩
    · cases taken

/-- Settling makes no numbers: one that stands in a settled row stood there
before. -/
theorem number_of_settled {kinds : List (Option Kind)} {x : Float}
    (member : .number x ∈ List.zipWith settle kinds row) : .number x ∈ row := by
  obtain ⟨kind, -, cell, held, same⟩ := mem_zip_with member
  cases kind with
  | none => cases same
  | some _ => exact same ▸ held

/-- A number in a table that is made of records stands in one of them. -/
theorem number_of_records {records : List Record} (made : ofRecords records = .ok t) {x : Float}
    (held : .number x ∈ t.cells) : ∃ record ∈ records, ∃ column, (column, .number x) ∈ record := by
  obtain ⟨_, _, rows⟩ := rows_of_records made
  obtain ⟨row, member, inRow⟩ := List.mem_flatten.mp held
  obtain ⟨⟨record, i⟩, numbered, given, found, rfl⟩ := forall₂_exists_left rows member
  exact ⟨record, List.fst_mem_of_mem_zipIdx numbered,
    mem_of_row_of_record found (number_of_settled inRow)⟩

end Table
end Reshape
