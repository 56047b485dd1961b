import FsspecDb.Insert.Copy
import FsspecDb.Path

/-!
# Reading COPY input back

PostgreSQL's CSV rules give each field of `batch_to_copy_csv` as NULL or as a text; the
text of a `bytea` is read by the rules of its hex format.
-/

namespace FsspecDb.Postgres
open Text Checked

/-! ### bytea -/

def isByteaBlank (b : Byte) : Bool := b = 0x20 || b = 0x09 || b = 0x0A || b = 0x0D

/-- Pairs of hex digits, between which there may be blanks. -/
def byteaHexPairs : List Byte → Option (List Byte)
  | [] => some []
  | [b] => if isByteaBlank b then some [] else none
  | b :: c :: input =>
    if isByteaBlank b then byteaHexPairs (c :: input)
    else
      match hexDigit b, hexDigit c with
      | some high, some low =>
        (byteaHexPairs input).map fun bytes => UInt8.ofNat (high * 16 + low) :: bytes
      | _, _ => none

/-- Input of a `bytea` in hex format. -/
def byteaHexInput : List Byte → Option (List Byte)
  | 0x5C :: 0x78 :: digits => byteaHexPairs digits
  | _ => none

/-- The byte of a hex digit. -/
def hexByte (n : Nat) : Byte := UInt8.ofNat (Nat.digitChar n).toNat

theorem hexByte_digit : ∀ n, n < 16 →
    String.utf8EncodeChar (Nat.digitChar n) = [hexByte n] ∧
      hexDigit (hexByte n) = some n ∧ isByteaBlank (hexByte n) = false := by
  decide

theorem encode_byteHex (b : Byte) :
    Utf8.encode (byteHex b) = [hexByte (b.toNat / 16), hexByte (b.toNat % 16)] := by
  have hb := b.toNat_lt
  have hhigh := (hexByte_digit (b.toNat / 16) (by omega)).1
  have hlow := (hexByte_digit (b.toNat % 16) (by omega)).1
  simp only [Utf8.encode, byteHex, List.flatMap_cons, List.flatMap_nil, hhigh, hlow,
    List.append_nil, List.singleton_append]

theorem byteaHexPairs_hexBytes (value : List Byte) :
    byteaHexPairs (Utf8.encode (value.flatMap byteHex)) = some value := by
  induction value with
  | nil => rfl
  | cons b value ih =>
    have hb := b.toNat_lt
    obtain ⟨_, hhigh, hblank⟩ := hexByte_digit (b.toNat / 16) (by omega)
    obtain ⟨_, hlow, _⟩ := hexByte_digit (b.toNat % 16) (by omega)
    have hbyte : UInt8.ofNat (b.toNat / 16 * 16 + b.toNat % 16) = b := by
      rw [Nat.div_add_mod' b.toNat 16, UInt8.ofNat_toNat]
    have hencode : Utf8.encode ((b :: value).flatMap byteHex) =
        hexByte (b.toNat / 16) :: hexByte (b.toNat % 16) ::
          Utf8.encode (value.flatMap byteHex) := by
      rw [List.flatMap_cons, Utf8.encode, List.flatMap_append, ← Utf8.encode, encode_byteHex]
      rfl
    rw [hencode, byteaHexPairs, if_neg (by simp [hblank]), hhigh, hlow, ih]
    simp [hbyte]

/-- What `postgres_bytea_hex` writes is read as the same bytes. -/
theorem byteaHexInput_postgresByteaHex (value : List Byte) :
    byteaHexInput (Utf8.encode (postgresByteaHex value)) = some value := by
  have hencode : Utf8.encode (postgresByteaHex value) =
      0x5C :: 0x78 :: Utf8.encode (value.flatMap byteHex) := rfl
  rw [hencode]
  exact byteaHexPairs_hexBytes value

/-! ### Cells -/

/-- A field that PostgreSQL reads as the cell: NULL, the cell's text, or hex digits of
the cell's bytes. -/
def ReadAs : CellValue → Option (List Byte) → Prop
  | .null, none => True
  | .bool value, some bytes =>
    bytes = Utf8.encode (if value then "true".toList else "false".toList)
  | .int value, some bytes => bytes = Utf8.encode (intText value)
  | .text value, some bytes => bytes = Utf8.encode value
  | .blob value, some bytes => byteaHexInput bytes = some value
  | _, _ => False

/-- The types of columns that COPY is defined for, floats apart. -/
def CopyType : DataType → Bool
  | .Null | .Boolean | .Int8 | .Int16 | .Int32 | .Int64 | .UInt8 | .UInt16 | .UInt32 | .UInt64
  | .Utf8 | .LargeUtf8 | .Binary | .LargeBinary => true
  | _ => false

/-- An integer that a BIGINT can hold, if it is one. -/
def FitsBigint : CellValue → Prop
  | .int value => value < 2 ^ 63
  | _ => True

instance (cell : CellValue) : Decidable (FitsBigint cell) := by
  cases cell <;> unfold FitsBigint <;> infer_instance

theorem readAs_of_cellText (floats : FloatText) (cell : CellValue) (field : Option Str)
    (h : CellText floats cell field) (hfloat : ∀ bits, cell ≠ .float bits) :
    ReadAs cell (field.map Utf8.encode) := by
  cases cell with
  | float bits => exact absurd rfl (hfloat bits)
  | null =>
    cases field with
    | none => trivial
    | some text => exact absurd h id
  | blob value =>
    cases field with
    | none => exact absurd h id
    | some text =>
      rw [show text = postgresByteaHex value from h]
      exact byteaHexInput_postgresByteaHex value
  | bool value | int value | text value =>
    cases field with
    | none => exact absurd h id
    | some text => exact congrArg Utf8.encode h

theorem slotValue_ne_float {α : Type} (values : List (Option α)) (row : Nat)
    (value : α → CellValue) (h : ∀ v bits, value v ≠ .float bits) (bits : UInt64) :
    slotValue values row value ≠ .float bits := by
  unfold slotValue
  split
  · exact h _ bits
  · simp

theorem cell_ne_float (array : ArrowArray) (row : Nat)
    (h : array.isNull row = true ∨ CopyType array.dataType = true) (bits : UInt64) :
    array.cell row ≠ .float bits := by
  rcases h with h | h
  · rw [cell_of_isNull array row h]
    simp
  · cases array with
    | null => simp [ArrowArray.cell]
    | float32 | float64 | date32 | date64 | time32 | time64 | timestamp | unsupported =>
      simp [CopyType, ArrowArray.dataType] at h
    | _ values => exact slotValue_ne_float values row _ (by simp) bits

theorem slotValue_fits {α : Type} (values : List (Option α)) (row : Nat) (value : α → CellValue)
    (h : ∀ v, FitsBigint (value v)) : FitsBigint (slotValue values row value) := by
  unfold slotValue
  split
  · exact h _
  · trivial

theorem exists_uint64Field_iff (floats : FloatText) (values : List (Option UInt64)) (row : Nat)
    (hvalid : (ArrowArray.uint64 values).isNull row = false) :
    (∃ field, copyCsvValue floats (.uint64 values) row = .ok field) ↔
      FitsBigint ((ArrowArray.uint64 values).cell row) := by
  rw [copyCsvValue, if_neg (by simp [hvalid, ArrowArray.dataType]), ArrowArray.cell, slotValue]
  cases values[row]? with
  | none => exact iff_of_true ⟨none, rfl⟩ trivial
  | some slot =>
    cases slot with
    | none => exact iff_of_true ⟨none, rfl⟩ trivial
    | some value =>
      have hcell : FitsBigint (.int value.toNat) ↔ value.toNat < 2 ^ 63 := by
        simp only [FitsBigint]
        omega
      rw [hcell]
      dsimp only
      by_cases hfits : value.toNat < 2 ^ 63
      · rw [if_pos hfits]
        exact iff_of_true ⟨_, rfl⟩ hfits
      · rw [if_neg hfits]
        exact iff_of_false (by simp) hfits

/-- A cell has a field unless it is an integer that no BIGINT holds. -/
theorem exists_copyCsvValue_iff (floats : FloatText) (array : ArrowArray) (row : Nat)
    (h : array.isNull row = true ∨ CopyType array.dataType = true) :
    (∃ field, copyCsvValue floats array row = .ok field) ↔ FitsBigint (array.cell row) := by
  by_cases hnull : (array.isNull row || decide (array.dataType = .Null)) = true
  · have hfield : copyCsvValue floats array row = .ok none := if_pos hnull
    refine iff_of_true ⟨none, hfield⟩ ?_
    rw [Bool.or_eq_true, decide_eq_true_iff] at hnull
    rcases hnull with hnull | htype
    · rw [cell_of_isNull array row hnull]
      trivial
    · cases array with
      | null => trivial
      | _ => simp [ArrowArray.dataType] at htype
  · have hvalid := hnull
    rw [Bool.or_eq_true, decide_eq_true_iff, not_or, Bool.not_eq_true] at hvalid
    have htype := h.resolve_left (by simp [hvalid.1])
    cases array with
    | float32 | float64 | date32 | date64 | time32 | time64 | timestamp | unsupported =>
      simp [CopyType, ArrowArray.dataType] at htype
    | null => exact absurd rfl hvalid.2
    | uint64 values => exact exists_uint64Field_iff floats values row hvalid.1
    | int8 values | int16 values | int32 values | int64 values =>
      rw [copyCsvValue, if_neg hnull]
      refine iff_of_true ⟨_, rfl⟩ (slotValue_fits values row _ fun v => ?_)
      have hbound := v.toInt_lt
      simp only [FitsBigint]
      omega
    | uint8 values | uint16 values | uint32 values =>
      rw [copyCsvValue, if_neg hnull]
      refine iff_of_true ⟨_, rfl⟩ (slotValue_fits values row _ fun v => ?_)
      have hbound := v.toNat_lt
      simp only [FitsBigint]
      omega
    | _ values =>
      rw [copyCsvValue, if_neg hnull]
      exact iff_of_true ⟨_, rfl⟩ (slotValue_fits values row _ fun _ => trivial)

/-! ### Batches -/

section
variable (core : CsvCore) (floats : FloatText)

theorem exists_copyCsvFields_iff (row : Nat) (columns : List ArrowArray) :
    (∃ bytes, copyCsvFields core floats row columns = .ok bytes) ↔
      ∀ column ∈ columns, ∃ field, copyCsvValue floats column row = .ok field := by
  induction columns with
  | nil => exact ⟨fun _ => by simp, fun _ => ⟨[], rfl⟩⟩
  | cons column columns ih =>
    cases columns with
    | nil =>
      simp only [copyCsvFields, map_eq_ok_iff, List.mem_singleton, forall_eq]
      exact ⟨fun ⟨_, field, hfield, _⟩ => ⟨field, hfield⟩,
        fun ⟨field, hfield⟩ => ⟨_, field, hfield, rfl⟩⟩
    | cons next columns =>
      rw [List.forall_mem_cons, ← ih]
      exact exists_bind_bind_ok_iff

theorem exists_batchToCopyCsv_iff (batch : RecordBatch) :
    (∃ data, batchToCopyCsv core floats batch = .ok data) ↔
      ∀ row < batch.numRows, ∀ column ∈ batch.columns,
        ∃ field, copyCsvValue floats column row = .ok field := by
  have hlines (row : Nat) : (∃ line, ((copyCsvFields core floats row batch.columns).map
      fun fields => fields ++ [0x0A]) = .ok line) ↔
      ∃ bytes, copyCsvFields core floats row batch.columns = .ok bytes := by
    simp only [map_eq_ok_iff]
    exact ⟨fun ⟨_, bytes, hbytes, _⟩ => ⟨bytes, hbytes⟩,
      fun ⟨bytes, hbytes⟩ => ⟨_, bytes, hbytes, rfl⟩⟩
  have hdata : (∃ data, batchToCopyCsv core floats batch = .ok data) ↔
      ∃ lines, (List.range batch.numRows).mapM (fun row =>
        (copyCsvFields core floats row batch.columns).map fun fields => fields ++ [0x0A]) =
          .ok lines := by
    simp only [batchToCopyCsv, map_eq_ok_iff]
    exact ⟨fun ⟨_, lines, hlines, _⟩ => ⟨lines, hlines⟩,
      fun ⟨lines, hlines⟩ => ⟨_, lines, hlines, rfl⟩⟩
  rw [hdata, exists_mapM_eq_ok_iff]
  simp only [List.mem_range, hlines, exists_copyCsvFields_iff]

/-- A batch of nulls, booleans, integers, text and binary is written unless an unsigned
integer is too large, and what was written is read as its rows and columns. -/
theorem copy_csv_round_trip (batch : RecordBatch) (hcolumns : batch.columns ≠ [])
    (hcells : ∀ row < batch.numRows, ∀ column ∈ batch.columns,
      column.isNull row = true ∨ CopyType column.dataType = true) :
    ((∃ data, batchToCopyCsv core floats batch = .ok data) ↔
      ∀ row < batch.numRows, ∀ column ∈ batch.columns, FitsBigint (column.cell row)) ∧
    ∀ data, batchToCopyCsv core floats batch = .ok data →
      ∃ records, Csv.read csvFormat data = some records ∧
        List.Forall₂ (fun row record => List.Forall₂ (fun column field =>
          ReadAs (column.cell row) (copyInput [0x5C, 0x4E] field)) batch.columns record)
          (List.range batch.numRows) records := by
  constructor
  · rw [exists_batchToCopyCsv_iff]
    refine forall_congr' fun row => forall_congr' fun hrow => forall_congr' fun column =>
      forall_congr' fun hcolumn => ?_
    exact exists_copyCsvValue_iff floats column row (hcells row hrow column hcolumn)
  · intro data hdata
    obtain ⟨records, hrecords, hread⟩ := batchToCopyCsv_read core floats batch data hcolumns hdata
    refine ⟨_, hread, List.forall₂_map_right_iff.mpr ?_⟩
    have hrows : ∀ row ∈ List.range batch.numRows, row < batch.numRows := fun row hrow =>
      List.mem_range.mp hrow
    refine ((List.forall₂_and_left _ _).mpr ⟨hrows, hrecords⟩).imp fun row fields hfields => ?_
    rw [List.forall₂_map_right_iff]
    refine ((List.forall₂_and_left _ _).mpr ⟨hcells row hfields.1, hfields.2⟩).imp
      fun column field hfield => ?_
    rw [copyInput_csvField]
    exact readAs_of_cellText floats _ field (copyCsvValue_cellText floats column row field hfield.2)
      (cell_ne_float column row hfield.1)

end

/-- A name and a payload, and then a name that is the text of NULL. -/
def payloadBatch : RecordBatch where
  schema := [⟨"name".toList, .Utf8, true⟩, ⟨"payload".toList, .Binary, true⟩]
  columns := [.utf8 [some "Ada, \"A\"".toList, some "\\N".toList],
    .binary [some [0, 255], none]]
  numRows := 2
  wellFormed := by decide

theorem payloads_round_trip :
    ∃ data records, batchToCopyCsv bufferedCsvCore zeroText payloadBatch = .ok data ∧
      Csv.read csvFormat data = some records ∧
      List.Forall₂ (fun row record => List.Forall₂ (fun column field =>
        ReadAs (column.cell row) (copyInput [0x5C, 0x4E] field)) payloadBatch.columns record)
        [0, 1] records := by
  have h := copy_csv_round_trip bufferedCsvCore zeroText payloadBatch (by decide) (by decide)
  obtain ⟨data, hdata⟩ := h.1.mpr (by decide)
  obtain ⟨records, hread, hrecords⟩ := h.2 data hdata
  exact ⟨data, records, hdata, hread, hrecords⟩

/-- An unsigned integer of 2^63. -/
def largeBatch : RecordBatch where
  schema := [⟨"id".toList, .UInt64, true⟩]
  columns := [.uint64 [some 9223372036854775808]]
  numRows := 1
  wellFormed := by decide

/-- Nothing is written of a batch whose integer does not fit, so there is nothing to read. -/
theorem large_integer_is_refused :
    (∀ column ∈ largeBatch.columns, CopyType column.dataType = true) ∧
      batchToCopyCsv bufferedCsvCore zeroText largeBatch =
        .error (.InvalidArgument "UInt64 value does not fit in Postgres BIGINT".toList) :=
  ⟨by decide, by decide +kernel⟩

end FsspecDb.Postgres
