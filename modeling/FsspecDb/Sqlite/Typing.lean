import FsspecDb.Sqlite.Chunk
import Mathlib.Data.List.FinRange

/-!
# The types and the cells of a chunk

The type of a column is the widest of its declared type and the types of its values, so the
order of the rows does not matter for it. Each value is decoded to that type on its own.
-/

namespace FsspecDb.Sqlite
open Text Checked

def decodedCell {α : Type} (cell : α → CellValue) : Except DbError α → CellValue
  | .ok value => cell value
  | .error _ => .null

/-- What a column of the type holds for a value. -/
def readCell (floats : FloatText) (dataType : DataType) (raw : SqliteValue) : CellValue :=
  let name := toAsciiLowercase raw.typeName
  if raw.isNull then .null
  else
    match dataType with
    | .Boolean => decodedCell .bool (decodeSqliteBool raw name)
    | .Int64 => decodedCell (fun value => .int value.toInt) (decodeSqliteI64 raw name)
    | .Float64 => decodedCell .float (decodeSqliteF64 raw name)
    | .Binary => decodedCell .blob (decodeSqliteBinary floats raw name)
    | _ => decodedCell .text (decodeSqliteUtf8 floats raw name)

/-- The value as it is. -/
def SqliteValue.cell : SqliteValue → CellValue
  | .null => .null
  | .integer value => .int value.toInt
  | .real bits => .float bits
  | .text value => .text value
  | .blob value => .blob value

/-- The runtime type of the value passes the test for the type of the column. -/
def InFamily (dataType : DataType) (raw : SqliteValue) : Bool :=
  let name := toAsciiLowercase raw.typeName
  match dataType with
  | .Boolean => isBool name
  | .Int64 => isInt name
  | .Float64 => isReal name
  | .Binary => isBlob name
  | _ => isText name

/-! ### One value -/

theorem readCell_null (floats : FloatText) (dataType : DataType) :
    readCell floats dataType .null = .null := by
  cases dataType <;> rfl

/- Of the tests on a runtime type name only the one for its own type succeeds. -/
theorem typeName_tests (raw : SqliteValue) (h : raw.isNull = false) :
    let name := toAsciiLowercase raw.typeName
    isText name = decide (valueRank raw = 5) ∧ isBlob name = decide (valueRank raw = 4) ∧
      isReal name = decide (valueRank raw = 3) ∧ isBool name = false ∧
      isInt name = decide (valueRank raw = 1) := by
  cases raw with
  | null => cases h
  | integer value => exact integer_tests value
  | real bits =>
    obtain ⟨h5, h4, h3⟩ := real_tests bits
    exact ⟨h5, h4, h3, (by decide : isBool (toAsciiLowercase "REAL".toList) = false),
      (by decide : isInt (toAsciiLowercase "REAL".toList) = false)⟩
  | text value =>
    obtain ⟨h5, h4⟩ := text_tests value
    exact ⟨h5, h4, (by decide : isReal (toAsciiLowercase "TEXT".toList) = false),
      (by decide : isBool (toAsciiLowercase "TEXT".toList) = false),
      (by decide : isInt (toAsciiLowercase "TEXT".toList) = false)⟩
  | blob value =>
    obtain ⟨h5, h4⟩ := blob_tests value
    exact ⟨h5, h4, (by decide : isReal (toAsciiLowercase "BLOB".toList) = false),
      (by decide : isBool (toAsciiLowercase "BLOB".toList) = false),
      (by decide : isInt (toAsciiLowercase "BLOB".toList) = false)⟩

theorem rank_of_inFamily (column : ColumnValues) (raw : SqliteValue) (hnull : raw.isNull = false)
    (h : InFamily column.dataType raw = true) : valueRank raw = typeRank column.dataType := by
  obtain ⟨h5, h4, h3, h2, h1⟩ := typeName_tests raw hnull
  cases column with
  | Bool values => exact absurd (h2.symm.trans h) (by decide)
  | Int64 values => exact of_decide_eq_true (h1.symm.trans h)
  | Float64 values => exact of_decide_eq_true (h3.symm.trans h)
  | Binary values => exact of_decide_eq_true (h4.symm.trans h)
  | Utf8 values => exact of_decide_eq_true (h5.symm.trans h)

/- A value of the family of the column is kept. -/
theorem readCell_inFamily (floats : FloatText) (column : ColumnValues) (raw : SqliteValue)
    (h : InFamily column.dataType raw = true) :
    readCell floats column.dataType raw = raw.cell := by
  have hrank := rank_of_inFamily column raw
  cases raw with
  | null => exact readCell_null floats _
  | integer value =>
    cases column with
    | Int64 values =>
      simp only [readCell, ColumnValues.dataType, SqliteValue.isNull, Bool.false_eq_true, if_false,
        (decode_integer value).2, decodedCell, SqliteValue.cell]
    | Bool | Float64 | Binary | Utf8 => cases hrank rfl h
  | real bits =>
    cases column with
    | Float64 values =>
      simp only [readCell, ColumnValues.dataType, SqliteValue.isNull, Bool.false_eq_true, if_false,
        decode_real, decodedCell, SqliteValue.cell]
    | Bool | Int64 | Binary | Utf8 => cases hrank rfl h
  | text value =>
    cases column with
    | Utf8 values =>
      simp only [readCell, ColumnValues.dataType, SqliteValue.isNull, Bool.false_eq_true, if_false,
        decode_text, decodedCell, SqliteValue.cell]
    | Bool | Int64 | Float64 | Binary => cases hrank rfl h
  | blob value =>
    cases column with
    | Binary values =>
      simp only [readCell, ColumnValues.dataType, SqliteValue.isNull, Bool.false_eq_true, if_false,
        decode_blob, decodedCell, SqliteValue.cell]
    | Bool | Int64 | Float64 | Utf8 => cases hrank rfl h

/-- A value that is pushed is held as it is read, and only NULL as a null. -/
theorem push_reads (floats : FloatText) (column next : ColumnValues) (raw : SqliteValue)
    (h : column.push floats raw = .ok next) :
    Extends column next (readCell floats column.dataType raw) ∧
      (readCell floats column.dataType raw = .null ↔ raw.isNull = true) := by
  unfold ColumnValues.push at h
  split at h
  · next hnull =>
    have hread : readCell floats column.dataType raw = .null := if_pos hnull
    rw [← Except.ok.inj h, hread]
    exact ⟨extends_pushNull column, iff_of_true rfl hnull⟩
  · next hnull =>
    have hread : readCell floats column.dataType raw = _ := if_neg hnull
    cases column with
    | Bool values | Int64 values | Float64 values | Binary values | Utf8 values =>
      obtain ⟨value, hvalue, rfl⟩ := map_eq_ok_iff.mp h
      rw [hread]
      simp only [ColumnValues.dataType, hvalue, decodedCell, reduceCtorEq, hnull, and_true]
      exact ⟨rfl, List.length_append, fun row hrow => slotValue_append_lt _ _ row _ hrow,
        slotValue_append_length _ _ _⟩

theorem finish_isNull_iff (column : ColumnValues) (row : Nat) (h : row < column.length) :
    column.finish.isNull row = true ↔ column.finish.cell row = .null := by
  have hslot {α : Type} (values : List (Option α)) (cell : α → CellValue)
      (hrow : row < values.length) (hcell : ∀ value, cell value ≠ .null) :
      (values.map Option.isSome)[row]? = some false ↔ slotValue values row cell = .null := by
    rw [List.getElem?_map, slotValue, List.getElem?_eq_getElem hrow]
    cases values[row] with
    | none => exact iff_of_true rfl rfl
    | some value =>
      simp only [Option.map_some, Option.isSome_some, Option.some.injEq, Bool.true_eq_false,
        hcell value]
  cases column with
  | Bool values | Int64 values | Float64 values | Binary values | Utf8 values =>
    rw [ArrowArray.isNull, decide_eq_true_iff]
    exact hslot values _ h fun value hnull => by cases hnull

/-! ### The rows -/

/-- The columns hold these rows under these types. -/
structure Reads (floats : FloatText) (types : List DataType) (columns : List ColumnValues)
    (rows : List SqliteRow) : Prop where
  dataTypes : columns.map ColumnValues.dataType = types
  lengths : ∀ column ∈ columns, column.length = rows.length
  cells : ∀ i row, rows[i]? = some row →
    rowAt columns i = List.zipWith (readCell floats) types row
  nulls : ∀ row ∈ rows, ∀ p ∈ types.zip row, readCell floats p.1 p.2 = .null ↔ p.2.isNull = true

/- One row is pushed column by column. -/
theorem pushRow_reads (floats : FloatText) (n : Nat) (columns next : List ColumnValues)
    (row : SqliteRow) (hlengths : ∀ column ∈ columns, column.length = n)
    (h : eachColumn (ColumnValues.push floats) columns row = .ok next) :
    next.map ColumnValues.dataType = columns.map ColumnValues.dataType ∧
      (∀ column ∈ next, column.length = n + 1) ∧
      (∀ i < n, rowAt next i = rowAt columns i) ∧
      rowAt next n = List.zipWith (readCell floats) (columns.map ColumnValues.dataType) row ∧
      ∀ p ∈ (columns.map ColumnValues.dataType).zip row,
        readCell floats p.1 p.2 = .null ↔ p.2.isNull = true := by
  induction columns generalizing row next with
  | nil =>
    cases h
    exact ⟨rfl, fun _ h => absurd h List.not_mem_nil, fun _ _ => rfl, rfl,
      fun _ h => absurd h List.not_mem_nil⟩
  | cons column columns ih =>
    cases row with
    | nil => cases h
    | cons raw row =>
      obtain ⟨first, hfirst, hrest⟩ := bind_eq_ok_iff.mp h
      obtain ⟨rest, hrest, heq⟩ := bind_eq_ok_iff.mp hrest
      rw [← Except.ok.inj heq]
      rw [List.forall_mem_cons] at hlengths
      obtain ⟨hextends, hnull⟩ := push_reads floats column first raw hfirst
      obtain ⟨htypes, htail, hkept, hlast, hnulls⟩ := ih rest row hlengths.2 hrest
      refine ⟨congrArg₂ List.cons hextends.dataType htypes, ?_, fun i hi => ?_, ?_, ?_⟩
      · exact List.forall_mem_cons.mpr ⟨by rw [hextends.length, hlengths.1], htail⟩
      · exact congrArg₂ List.cons (hextends.kept i (by rwa [hlengths.1])) (hkept i hi)
      · have hcell := hextends.last
        rw [hlengths.1] at hcell
        exact congrArg₂ List.cons hcell hlast
      · exact List.forall_mem_cons.mpr ⟨hnull, hnulls⟩

theorem Reads.push {floats : FloatText} {types : List DataType} {columns next : List ColumnValues}
    {rows : List SqliteRow} {row : SqliteRow} (h : Reads floats types columns rows)
    (hnext : eachColumn (ColumnValues.push floats) columns row = .ok next) :
    Reads floats types next (rows ++ [row]) := by
  obtain ⟨htypes, hlengths, hkept, hlast, hnulls⟩ :=
    pushRow_reads floats rows.length columns next row h.lengths hnext
  rw [h.dataTypes] at htypes hlast hnulls
  refine ⟨htypes, ?_, fun i before hi => ?_, ?_⟩
  · rw [List.length_append]
    exact hlengths
  · rcases Nat.lt_or_ge i rows.length with hbefore | hafter
    · rw [List.getElem?_append_left hbefore] at hi
      rw [hkept i hbefore, h.cells i before hi]
    · rw [List.getElem?_append_right hafter, List.getElem?_singleton] at hi
      split at hi
      · next hlast' =>
        obtain rfl : i = rows.length := by omega
        rw [hlast, Option.some.inj hi]
      · cases hi
  · intro before hbefore
    rcases List.mem_append.mp hbefore with hin | hin
    · exact h.nulls before hin
    · rw [List.mem_singleton.mp hin]
      exact hnulls

theorem pushRows_reads {floats : FloatText} {types : List DataType}
    {columns next : List ColumnValues} {before : List SqliteRow} (rows : List SqliteRow)
    (h : Reads floats types columns before)
    (hnext : rows.foldlM (eachColumn (ColumnValues.push floats)) columns = .ok next) :
    Reads floats types next (before ++ rows) := by
  induction rows generalizing columns before with
  | nil =>
    rw [← Except.ok.inj hnext, List.append_nil]
    exact h
  | cons row rows ih =>
    rw [List.foldlM_cons] at hnext
    obtain ⟨first, hfirst, hrest⟩ := bind_eq_ok_iff.mp hnext
    have hall := ih (h.push hfirst) hrest
    rwa [List.append_assoc] at hall

/-! ### The batch -/

/-- A batch of a chunk is made of columns that hold its rows under the types of the chunk. -/
theorem sqliteRowsToBatch_reads (floats : FloatText) (columnMetadata : List (Str × Str))
    (rows : List SqliteRow) (hne : columnMetadata ≠ [])
    (hwidth : ∀ row ∈ rows, row.length = columnMetadata.length) :
    ∃ batch columns, sqliteRowsToBatch floats columnMetadata rows = .ok batch ∧
      batch.schema = schemaOf columnMetadata (columnTypes columnMetadata rows) ∧
      batch.columns = columns.map ColumnValues.finish ∧
      Reads floats (columnTypes columnMetadata rows) columns rows := by
  obtain ⟨batch, hbatch, hschema, _⟩ := sqliteRowsToBatch_ok floats columnMetadata rows hne hwidth
  have hsteps := hbatch
  unfold sqliteRowsToBatch at hsteps
  obtain ⟨names, _, hsteps⟩ := bind_eq_ok_iff.mp hsteps
  obtain ⟨columns, hcolumns, hsteps⟩ := bind_eq_ok_iff.mp hsteps
  have harrays := (RecordBatch.eq_of_tryNew _ _ _ hsteps).2
  have hstart : Reads floats ((names.map ColumnValues.new).map ColumnValues.dataType)
      (names.map ColumnValues.new) [] := by
    refine ⟨rfl, ?_, nofun, nofun⟩
    intro column hcolumn
    obtain ⟨name, _, rfl⟩ := List.mem_map.mp hcolumn
    exact new_length name
  have hreads := pushRows_reads rows hstart hcolumns
  have htypes : columns.map ColumnValues.dataType = columnTypes columnMetadata rows := by
    have hwell := batch.wellFormed.types
    rw [hschema, schemaOf_types _ _ (columnTypes_length columnMetadata rows hwidth),
      harrays] at hwell
    rw [← hwell, List.map_map]
    exact List.map_congr_left fun column _ => column.finish_dataType.symm
  rw [← hreads.dataTypes, htypes, List.nil_append] at hreads
  exact ⟨batch, columns, hbatch, hschema, harrays, hreads⟩

section
variable {floats : FloatText} {types : List DataType} {columns : List ColumnValues}
  {rows : List SqliteRow}

/- The cell of one value. -/
theorem Reads.cell (h : Reads floats types columns rows) {i j : Nat} {column : ColumnValues}
    {row : SqliteRow} {raw : SqliteValue} (hcolumn : columns[j]? = some column)
    (hrow : rows[i]? = some row) (hraw : row[j]? = some raw) :
    column.finish.cell i = readCell floats column.dataType raw ∧
      (column.finish.isNull i = true ↔ raw.isNull = true) := by
  have htype : types[j]? = some column.dataType := by
    rw [← h.dataTypes, List.getElem?_map, hcolumn]
    rfl
  have hcell : column.finish.cell i = readCell floats column.dataType raw := by
    have hall := congrArg (fun cells => cells[j]?) (h.cells i row hrow)
    simp only [rowAt, List.getElem?_map, hcolumn, Option.map_some, List.getElem?_zipWith, htype,
      hraw, Option.some.injEq] at hall
    exact hall
  have hlength : i < column.length := by
    rw [h.lengths column (List.mem_of_getElem? hcolumn)]
    exact (List.getElem?_eq_some_iff.mp hrow).1
  refine ⟨hcell, ?_⟩
  rw [finish_isNull_iff column i hlength, hcell]
  refine h.nulls row (List.mem_of_getElem? hrow) (column.dataType, raw) ?_
  refine List.mem_of_getElem? (i := j) ?_
  rw [List.getElem?_zip_eq_some]
  exact ⟨htype, hraw⟩

end

/-! ### The order of the rows -/

theorem widen_right_comm (ranks : List Nat) (first second : SqliteRow) :
    widen (widen ranks first) second = widen (widen ranks second) first := by
  refine List.ext_getElem? fun j => ?_
  simp only [widen, List.getElem?_zipWith, List.getElem?_map]
  cases ranks[j]? with
  | none => rfl
  | some rank =>
    cases first[j]? with
    | none =>
      cases second[j]? with
      | none => rfl
      | some raw => rfl
    | some raw =>
      cases second[j]? with
      | none => rfl
      | some raw' => exact congrArg some (Nat.max_right_comm rank _ _)

theorem columnTypes_perm (columnMetadata : List (Str × Str)) {rows rows' : List SqliteRow}
    (h : rows.Perm rows') : columnTypes columnMetadata rows = columnTypes columnMetadata rows' := by
  rw [columnTypes, columnTypes, columnRanks, columnRanks]
  exact congrArg (List.map rankType)
    (h.foldl_eq' (fun first _ second _ ranks => widen_right_comm ranks first second) _)

/-- Row `i` of the second batch is row `σ i` of the first, in arrays of the same types. -/
structure Permuted {n : Nat} (σ : Equiv.Perm (Fin n)) (batch batch' : RecordBatch) : Prop where
  schema : batch'.schema = batch.schema
  arrays : List.Forall₂ (fun array array' => array'.dataType = array.dataType ∧
    array'.length = array.length ∧
    ∀ i : Fin n, array'.isNull i = array.isNull (σ i) ∧ array'.cell i = array.cell (σ i))
    batch.columns batch'.columns

/-- One array for each column, with a null for each NULL and the values of its family. -/
structure Holds (columnMetadata : List (Str × Str)) (rows : List SqliteRow)
    (batch : RecordBatch) : Prop where
  columns : batch.columns.length = columnMetadata.length
  lengths : ∀ array ∈ batch.columns, array.length = rows.length
  nulls : ∀ (i j : Nat) (array : ArrowArray) (row : SqliteRow) (raw : SqliteValue),
    batch.columns[j]? = some array → rows[i]? = some row → row[j]? = some raw →
    (array.isNull i = true ↔ raw = .null)
  kept : ∀ (i j : Nat) (array : ArrowArray) (row : SqliteRow) (raw : SqliteValue),
    batch.columns[j]? = some array → rows[i]? = some row → row[j]? = some raw →
    InFamily array.dataType raw = true → array.cell i = raw.cell

theorem SqliteValue.isNull_iff (raw : SqliteValue) : raw.isNull = true ↔ raw = .null := by
  cases raw <;> simp [isNull]

theorem Reads.holds {floats : FloatText} {columnMetadata : List (Str × Str)}
    {columns : List ColumnValues} {rows : List SqliteRow} {batch : RecordBatch}
    (h : Reads floats (columnTypes columnMetadata rows) columns rows)
    (hwidth : ∀ row ∈ rows, row.length = columnMetadata.length)
    (harrays : batch.columns = columns.map ColumnValues.finish) :
    Holds columnMetadata rows batch where
  columns := by
    rw [harrays, List.length_map, ← columnTypes_length columnMetadata rows hwidth, ← h.dataTypes,
      List.length_map]
  lengths := by
    intro array harray
    rw [harrays] at harray
    obtain ⟨column, hcolumn, rfl⟩ := List.mem_map.mp harray
    rw [ColumnValues.finish_length, h.lengths column hcolumn]
  nulls := by
    intro i j array row raw harray hrow hraw
    rw [harrays, List.getElem?_map, Option.map_eq_some_iff] at harray
    obtain ⟨column, hcolumn, rfl⟩ := harray
    rw [(h.cell hcolumn hrow hraw).2, raw.isNull_iff]
  kept := by
    intro i j array row raw harray hrow hraw hfamily
    rw [harrays, List.getElem?_map, Option.map_eq_some_iff] at harray
    obtain ⟨column, hcolumn, rfl⟩ := harray
    rw [ColumnValues.finish_dataType] at hfamily
    rw [(h.cell hcolumn hrow hraw).1, readCell_inFamily floats column raw hfamily]

theorem Reads.permuted {floats : FloatText} {columnMetadata : List (Str × Str)}
    {columns columns' : List ColumnValues} {rows : List SqliteRow} {batch batch' : RecordBatch}
    (σ : Equiv.Perm (Fin rows.length))
    (hwidth : ∀ row ∈ rows, row.length = columnMetadata.length)
    (hschema : batch.schema = schemaOf columnMetadata (columnTypes columnMetadata rows))
    (hschema' : batch'.schema = schemaOf columnMetadata (columnTypes columnMetadata rows))
    (harrays : batch.columns = columns.map ColumnValues.finish)
    (harrays' : batch'.columns = columns'.map ColumnValues.finish)
    (h : Reads floats (columnTypes columnMetadata rows) columns rows)
    (h' : Reads floats (columnTypes columnMetadata rows) columns'
      (List.ofFn fun i => rows.get (σ i))) :
    Permuted σ batch batch' := by
  refine ⟨hschema'.trans hschema.symm, ?_⟩
  have hcount : columns.length = columns'.length := by
    have hmap := congrArg List.length (h.dataTypes.trans h'.dataTypes.symm)
    rwa [List.length_map, List.length_map] at hmap
  rw [harrays, harrays', List.forall₂_map_left_iff, List.forall₂_map_right_iff,
    List.forall₂_iff_get]
  refine ⟨hcount, fun j hj hj' => ?_⟩
  have hcolumn : columns[j]? = some (columns.get ⟨j, hj⟩) := List.getElem?_eq_getElem hj
  have hcolumn' : columns'[j]? = some (columns'.get ⟨j, hj'⟩) := List.getElem?_eq_getElem hj'
  have htype : (columns'.get ⟨j, hj'⟩).dataType = (columns.get ⟨j, hj⟩).dataType := by
    have hmap := congrArg (fun types => types[j]?) (h'.dataTypes.trans h.dataTypes.symm)
    simpa only [List.getElem?_map, hcolumn, hcolumn', Option.map_some, Option.some.injEq] using hmap
  refine ⟨by simp only [ColumnValues.finish_dataType, htype], ?_, fun i => ?_⟩
  · rw [ColumnValues.finish_length, ColumnValues.finish_length,
      h.lengths _ (List.get_mem ..), h'.lengths _ (List.get_mem ..), List.length_ofFn]
  -- both cells are read from the same value
  · have hrow : rows[(σ i).val]? = some (rows.get (σ i)) := List.getElem?_eq_getElem (σ i).isLt
    have hrow' : (List.ofFn fun i => rows.get (σ i))[i.val]? = some (rows.get (σ i)) := by
      rw [List.getElem?_ofFn, dif_pos i.isLt]
    have hraw : j < (rows.get (σ i)).length := by
      rw [hwidth _ (List.get_mem ..), ← columnTypes_length columnMetadata rows hwidth,
        ← h.dataTypes, List.length_map]
      exact hj
    obtain ⟨hcell, hnull⟩ := h.cell hcolumn hrow (List.getElem?_eq_getElem hraw)
    obtain ⟨hcell', hnull'⟩ := h'.cell hcolumn' hrow' (List.getElem?_eq_getElem hraw)
    exact ⟨Bool.eq_iff_iff.mpr (hnull'.trans hnull.symm), by rw [hcell', hcell, htype]⟩

/-- The typing of a chunk is a sound join: no value is refused, the values of the family of a
column are kept, and the order of the rows does not change a type. -/
theorem chunkTyping_sound (floats : FloatText) (columnMetadata : List (Str × Str))
    (rows : List SqliteRow) (hne : columnMetadata ≠ [])
    (hwidth : ∀ row ∈ rows, row.length = columnMetadata.length) :
    ∃ batch, sqliteRowsToBatch floats columnMetadata rows = .ok batch ∧
      batch.schema = schemaOf columnMetadata (columnTypes columnMetadata rows) ∧
      Holds columnMetadata rows batch ∧
      ∀ σ : Equiv.Perm (Fin rows.length), ∃ batch',
        sqliteRowsToBatch floats columnMetadata (List.ofFn fun i => rows.get (σ i)) = .ok batch' ∧
        Permuted σ batch batch' := by
  obtain ⟨batch, columns, hbatch, hschema, harrays, hreads⟩ :=
    sqliteRowsToBatch_reads floats columnMetadata rows hne hwidth
  refine ⟨batch, hbatch, hschema, hreads.holds hwidth harrays, fun σ => ?_⟩
  have hperm : (List.ofFn fun i => rows.get (σ i)).Perm rows := by
    have hofFn := σ.ofFn_comp_perm rows.get
    rwa [List.ofFn_get] at hofFn
  obtain ⟨batch', columns', hbatch', hschema', harrays', hreads'⟩ :=
    sqliteRowsToBatch_reads floats columnMetadata (List.ofFn fun i => rows.get (σ i)) hne
      fun row hrow => hwidth row (hperm.mem_iff.mp hrow)
  rw [columnTypes_perm columnMetadata hperm] at hschema' hreads'
  exact ⟨batch', hbatch', Reads.permuted σ hwidth hschema hschema' harrays harrays' hreads hreads'⟩

def mixedColumns : List (Str × Str) :=
  [("id".toList, "INTEGER".toList), ("value".toList, "POINT BOOL".toList)]

def mixedRows : List SqliteRow :=
  [[.integer 1, .integer 2], [.null, .text "two".toList], [.integer 3, .real 0]]

theorem mixed_typing :
    ∃ batch, sqliteRowsToBatch zeroText mixedColumns mixedRows = .ok batch ∧
      batch.schema = schemaOf mixedColumns [.Int64, .Utf8] ∧
      Holds mixedColumns mixedRows batch ∧
      ∃ batch', sqliteRowsToBatch zeroText mixedColumns mixedRows.reverse = .ok batch' ∧
        Permuted (n := 3) Fin.revPerm batch batch' := by
  obtain ⟨batch, hbatch, hschema, hholds, hpermuted⟩ := chunkTyping_sound zeroText mixedColumns
    mixedRows (by decide) (by decide)
  have htypes : columnTypes mixedColumns mixedRows = [.Int64, .Utf8] := by decide
  rw [htypes] at hschema
  exact ⟨batch, hbatch, hschema, hholds, hpermuted Fin.revPerm⟩

end FsspecDb.Sqlite
