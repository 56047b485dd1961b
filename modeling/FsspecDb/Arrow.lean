import FsspecDb.Error

/-!
# Arrow schemas, arrays and record batches

The part of the arrow crate that the backends read and build. An array is one
constructor per storage type, so the downcast of an array by its own data type
always succeeds; a record batch carries the checks of `RecordBatch::try_new` as
fields.
-/

namespace FsspecDb

inductive TimeUnit where
  | Second
  | Millisecond
  | Microsecond
  | Nanosecond
  deriving Repr, DecidableEq

inductive DataType where
  | Null
  | Boolean
  | Int8
  | Int16
  | Int32
  | Int64
  | UInt8
  | UInt16
  | UInt32
  | UInt64
  | Float32
  | Float64
  | Utf8
  | LargeUtf8
  | Binary
  | LargeBinary
  | Date32
  | Date64
  | Time32 (unit : TimeUnit)
  | Time64 (unit : TimeUnit)
  | Timestamp (unit : TimeUnit) (timezone : Option Str)
  | Unsupported (name : Str)
  deriving Repr, DecidableEq

structure Field where
  name : Str
  dataType : DataType
  nullable : Bool
  deriving Repr, DecidableEq

abbrev Schema := List Field

/-- `dyn Array` by storage type, `none` for a null slot. Floats are their bits. -/
inductive ArrowArray where
  | null (length : Nat)
  | boolean (values : List (Option Bool))
  | int8 (values : List (Option Int8))
  | int16 (values : List (Option Int16))
  | int32 (values : List (Option Int32))
  | int64 (values : List (Option Int64))
  | uint8 (values : List (Option UInt8))
  | uint16 (values : List (Option UInt16))
  | uint32 (values : List (Option UInt32))
  | uint64 (values : List (Option UInt64))
  | float32 (values : List (Option UInt32))
  | float64 (values : List (Option UInt64))
  | utf8 (values : List (Option Str))
  | largeUtf8 (values : List (Option Str))
  | binary (values : List (Option (List Byte)))
  | largeBinary (values : List (Option (List Byte)))
  | date32 (values : List (Option Int32))
  | date64 (values : List (Option Int64))
  | time32 (unit : TimeUnit) (values : List (Option Int32))
  | time64 (unit : TimeUnit) (values : List (Option Int64))
  | timestamp (unit : TimeUnit) (timezone : Option Str) (values : List (Option Int64))
  | unsupported (name : Str) (valid : List Bool)
  deriving Repr, DecidableEq

namespace ArrowArray

def dataType : ArrowArray → DataType
  | .null _ => .Null
  | .boolean _ => .Boolean
  | .int8 _ => .Int8
  | .int16 _ => .Int16
  | .int32 _ => .Int32
  | .int64 _ => .Int64
  | .uint8 _ => .UInt8
  | .uint16 _ => .UInt16
  | .uint32 _ => .UInt32
  | .uint64 _ => .UInt64
  | .float32 _ => .Float32
  | .float64 _ => .Float64
  | .utf8 _ => .Utf8
  | .largeUtf8 _ => .LargeUtf8
  | .binary _ => .Binary
  | .largeBinary _ => .LargeBinary
  | .date32 _ => .Date32
  | .date64 _ => .Date64
  | .time32 unit _ => .Time32 unit
  | .time64 unit _ => .Time64 unit
  | .timestamp unit timezone _ => .Timestamp unit timezone
  | .unsupported name _ => .Unsupported name

/-- Which slots hold a value. A null array has no validity bitmap; the arrow
crate answers `is_null` with false for it. -/
def valid : ArrowArray → List Bool
  | .null n => List.replicate n true
  | .boolean vs => vs.map Option.isSome
  | .int8 vs => vs.map Option.isSome
  | .int16 vs => vs.map Option.isSome
  | .int32 vs => vs.map Option.isSome
  | .int64 vs => vs.map Option.isSome
  | .uint8 vs => vs.map Option.isSome
  | .uint16 vs => vs.map Option.isSome
  | .uint32 vs => vs.map Option.isSome
  | .uint64 vs => vs.map Option.isSome
  | .float32 vs => vs.map Option.isSome
  | .float64 vs => vs.map Option.isSome
  | .utf8 vs => vs.map Option.isSome
  | .largeUtf8 vs => vs.map Option.isSome
  | .binary vs => vs.map Option.isSome
  | .largeBinary vs => vs.map Option.isSome
  | .date32 vs => vs.map Option.isSome
  | .date64 vs => vs.map Option.isSome
  | .time32 _ vs => vs.map Option.isSome
  | .time64 _ vs => vs.map Option.isSome
  | .timestamp _ _ vs => vs.map Option.isSome
  | .unsupported _ valid => valid

def length (a : ArrowArray) : Nat := a.valid.length

/-- `Array::is_null`; `row` is in bounds wherever the code calls it. -/
def isNull (a : ArrowArray) (row : Nat) : Bool := a.valid[row]? = some false

end ArrowArray

/-- What `RecordBatch::try_new` checks besides that there is a column. -/
structure WellFormed (schema : Schema) (columns : List ArrowArray) (numRows : Nat) : Prop where
  types : columns.map ArrowArray.dataType = schema.map Field.dataType
  lengths : ∀ column ∈ columns, column.length = numRows
  nulls : ∀ p ∈ schema.zip columns, p.1.nullable = false → p.2.valid.all id = true

instance (schema : Schema) (columns : List ArrowArray) (numRows : Nat) :
    Decidable (WellFormed schema columns numRows) :=
  decidable_of_iff
    (columns.map ArrowArray.dataType = schema.map Field.dataType ∧
      (∀ column ∈ columns, column.length = numRows) ∧
      ∀ p ∈ schema.zip columns, p.1.nullable = false → p.2.valid.all id = true)
    ⟨fun h => ⟨h.1, h.2.1, h.2.2⟩, fun h => ⟨h.types, h.lengths, h.nulls⟩⟩

structure RecordBatch where
  schema : Schema
  columns : List ArrowArray
  numRows : Nat
  wellFormed : WellFormed schema columns numRows

namespace RecordBatch

/-- `RecordBatch::try_new`: the first column gives the number of rows. -/
def tryNew (schema : Schema) (columns : List ArrowArray) : Except DbError RecordBatch :=
  match columns with
  | [] => .error (.Arrow
      "must either specify a row count or at least one column".toList)
  | first :: rest =>
    if h : WellFormed schema (first :: rest) first.length then
      .ok ⟨schema, first :: rest, first.length, h⟩
    else .error (.Arrow "column types, lengths or nulls do not match the schema".toList)

theorem tryNew_ok (schema : Schema) (columns : List ArrowArray) (n : Nat)
    (hne : columns ≠ []) (h : WellFormed schema columns n) :
    ∃ batch, tryNew schema columns = .ok batch ∧ batch.schema = schema ∧
      batch.columns = columns ∧ batch.numRows = n := by
  cases columns with
  | nil => exact absurd rfl hne
  | cons first rest =>
    have hn : first.length = n := h.lengths first (List.mem_cons_self ..)
    subst hn
    exact ⟨⟨schema, first :: rest, first.length, h⟩, by simp only [tryNew, dif_pos h],
      rfl, rfl, rfl⟩

theorem eq_of_tryNew (schema : Schema) (columns : List ArrowArray) (batch : RecordBatch)
    (h : tryNew schema columns = .ok batch) : batch.schema = schema ∧ batch.columns = columns := by
  cases columns with
  | nil => cases h
  | cons first rest =>
    unfold tryNew at h
    dsimp only at h
    split at h
    · rw [← Except.ok.inj h]
      exact ⟨rfl, rfl⟩
    · simp at h

theorem numRows_of_tryNew (schema : Schema) (first : ArrowArray) (rest : List ArrowArray)
    (batch : RecordBatch) (h : tryNew schema (first :: rest) = .ok batch) :
    batch.numRows = first.length := by
  unfold tryNew at h
  dsimp only at h
  split at h
  · rw [← Except.ok.inj h]
  · simp at h

end RecordBatch

def emptyArray : DataType → ArrowArray
  | .Null => .null 0
  | .Boolean => .boolean []
  | .Int8 => .int8 []
  | .Int16 => .int16 []
  | .Int32 => .int32 []
  | .Int64 => .int64 []
  | .UInt8 => .uint8 []
  | .UInt16 => .uint16 []
  | .UInt32 => .uint32 []
  | .UInt64 => .uint64 []
  | .Float32 => .float32 []
  | .Float64 => .float64 []
  | .Utf8 => .utf8 []
  | .LargeUtf8 => .largeUtf8 []
  | .Binary => .binary []
  | .LargeBinary => .largeBinary []
  | .Date32 => .date32 []
  | .Date64 => .date64 []
  | .Time32 unit => .time32 unit []
  | .Time64 unit => .time64 unit []
  | .Timestamp unit timezone => .timestamp unit timezone []
  | .Unsupported name => .unsupported name []

theorem emptyArray_dataType (t : DataType) : (emptyArray t).dataType = t := by
  cases t <;> rfl

theorem emptyArray_valid (t : DataType) : (emptyArray t).valid = [] := by
  cases t <;> rfl

def RecordBatch.newEmpty (schema : Schema) : RecordBatch where
  schema := schema
  columns := schema.map fun field => emptyArray field.dataType
  numRows := 0
  wellFormed := by
    refine ⟨?_, ?_, ?_⟩
    · simp only [List.map_map, Function.comp_def, emptyArray_dataType]
    · intro column hc
      obtain ⟨field, _, rfl⟩ := List.mem_map.mp hc
      simp only [ArrowArray.length, emptyArray_valid, List.length_nil]
    · intro p hp _
      obtain ⟨field, _, hf⟩ := List.mem_map.mp (List.of_mem_zip hp).2
      rw [← hf, emptyArray_valid]
      rfl

end FsspecDb
