import FsspecDb.Stream.Declared

/-!
# Columns of a PostgreSQL query (postgres.rs, `ColumnValues`)

What sqlx makes of a stored value is a parameter: a value that is not NULL carries the name of
its type and what `try_get` gives at each Rust type that `push` asks for.
-/

namespace FsspecDb

namespace Postgres
open Text Checked FsspecDb.Stream

/-- A value of a row that is not NULL. A date is its days since 1970-01-01, a time of day its
nanoseconds, a time stamp its `timestamp_micros`, the types rendered as text are their text. -/
structure RowValue where
  typeName : Str
  bool : Except DbError Bool
  i16 : Except DbError Int16
  i32 : Except DbError Int32
  i64 : Except DbError Int64
  f32 : Except DbError UInt32
  f64 : Except DbError UInt64
  bytes : Except DbError (List Byte)
  string : Except DbError Str
  naiveDate : Except DbError Int
  naiveTime : Except DbError Nat
  dateTimeUtc : Except DbError Int64
  naiveDateTime : Except DbError Int64
  bigDecimal : Except DbError Str
  uuid : Except DbError Str
  jsonValue : Except DbError Str

inductive TextKind where
  | Decimal
  | Uuid
  | Json
  deriving Repr, DecidableEq

inductive ColumnValues where
  | Bool (values : List (Option Bool))
  | Int16 (values : List (Option Int64))
  | Int32 (values : List (Option Int64))
  | Int64 (values : List (Option Int64))
  | Float32 (values : List (Option UInt64))
  | Float64 (values : List (Option UInt64))
  | Binary (values : List (Option (List Byte)))
  | Utf8 (values : List (Option Str))
  | Date32 (values : List (Option Int32))
  | Time64 (values : List (Option Int64))
  | Timestamp (values : List (Option Int64))
  | Text (values : List (Option Str)) (kind : TextKind)
  | Unsupported (name : Str) (values : List (Option Str))
  deriving Repr, DecidableEq

def naiveDateToDays (date : Int) : Int32 := Int32.ofInt date

def naiveTimeToMicros (time : Nat) : Int64 := Int64.ofNat (time / 1000)

def timestampMicros (value : RowValue) : Except DbError Int64 :=
  match value.dateTimeUtc with
  | .ok micros => .ok micros
  | .error _ => value.naiveDateTime

def decodeText (value : RowValue) : TextKind → Except DbError Str
  | .Decimal => value.bigDecimal
  | .Uuid => value.uuid
  | .Json => value.jsonValue

def unmapped (name : Str) : DbError :=
  .NotSupported ("Postgres query output type is not yet mapped to Arrow: ".toList ++ name)

namespace ColumnValues

/- The arms of the `match` in `new`. -/
def arms : List (List String × ColumnValues) :=
  [(["BOOL"], .Bool []),
    (["INT2"], .Int16 []),
    (["INT4", "OID"], .Int32 []),
    (["INT8"], .Int64 []),
    (["FLOAT4"], .Float32 []),
    (["FLOAT8"], .Float64 []),
    (["BYTEA"], .Binary []),
    (["TEXT", "VARCHAR", "BPCHAR", "CHAR", "NAME"], .Utf8 []),
    (["DATE"], .Date32 []),
    (["TIME"], .Time64 []),
    (["TIMESTAMP", "TIMESTAMPTZ"], .Timestamp []),
    (["NUMERIC"], .Text [] .Decimal),
    (["UUID"], .Text [] .Uuid),
    (["JSON", "JSONB"], .Text [] .Json)]

def new (postgresTypes : List Str) : ColumnValues :=
  let postgresType := (postgresTypes.head?.map toAsciiUppercase).getD "TEXT".toList
  match arms.find? fun arm => arm.1.any fun name => postgresType = name.toList with
  | some arm => arm.2
  | none => .Unsupported postgresType []

def pushNull : ColumnValues → ColumnValues
  | .Bool values => .Bool (values ++ [none])
  | .Int16 values => .Int16 (values ++ [none])
  | .Int32 values => .Int32 (values ++ [none])
  | .Int64 values => .Int64 (values ++ [none])
  | .Float32 values => .Float32 (values ++ [none])
  | .Float64 values => .Float64 (values ++ [none])
  | .Binary values => .Binary (values ++ [none])
  | .Utf8 values => .Utf8 (values ++ [none])
  | .Date32 values => .Date32 (values ++ [none])
  | .Time64 values => .Time64 (values ++ [none])
  | .Timestamp values => .Timestamp (values ++ [none])
  | .Text values kind => .Text (values ++ [none]) kind
  | .Unsupported name values => .Unsupported name (values ++ [none])

/- `values.push(Some(decoded?))`. -/
def pushSlot {α : Type} (column : List (Option α) → ColumnValues) (values : List (Option α))
    (decoded : Except DbError α) : Except DbError ColumnValues :=
  decoded.map fun value => column (values ++ [some value])

def push (column : ColumnValues) (raw : Option RowValue) : Except DbError ColumnValues :=
  match raw with
  | none => .ok column.pushNull
  | some value =>
    match column with
    | .Bool values => pushSlot .Bool values value.bool
    | .Int16 values => pushSlot .Int16 values (value.i16.map Int16.toInt64)
    | .Int32 values => pushSlot .Int32 values (value.i32.map Int32.toInt64)
    | .Int64 values => pushSlot .Int64 values value.i64
    | .Float32 values => pushSlot .Float32 values (value.f32.map f64FromF32)
    | .Float64 values => pushSlot .Float64 values value.f64
    | .Binary values => pushSlot .Binary values value.bytes
    | .Utf8 values => pushSlot .Utf8 values value.string
    | .Date32 values => pushSlot .Date32 values (value.naiveDate.map naiveDateToDays)
    | .Time64 values => pushSlot .Time64 values (value.naiveTime.map naiveTimeToMicros)
    | .Timestamp values => pushSlot .Timestamp values (timestampMicros value)
    | .Text values kind => pushSlot (.Text · kind) values (decodeText value kind)
    | .Unsupported name _ => .error (unmapped name)

def dataType : ColumnValues → DataType
  | .Bool _ => .Boolean
  | .Int16 _ | .Int32 _ | .Int64 _ => .Int64
  | .Float32 _ | .Float64 _ => .Float64
  | .Binary _ => .Binary
  | .Utf8 _ | .Unsupported _ _ | .Text _ _ => .Utf8
  | .Date32 _ => .Date32
  | .Time64 _ => .Time64 .Microsecond
  | .Timestamp _ => .Timestamp .Microsecond none

def finish : ColumnValues → ArrowArray
  | .Bool values => .boolean values
  | .Int16 values | .Int32 values | .Int64 values => .int64 values
  | .Float32 values | .Float64 values => .float64 values
  | .Binary values => .binary values
  | .Utf8 values | .Unsupported _ values | .Text values _ => .utf8 values
  | .Date32 values => .date32 values
  | .Time64 values => .time64 .Microsecond values
  | .Timestamp values => .timestamp .Microsecond none values

/-- What a value of the column says in the batch. -/
def cell (column : ColumnValues) (raw : Option RowValue) : Except DbError CellValue :=
  match raw with
  | none => .ok .null
  | some value =>
    match column with
    | .Bool _ => value.bool.map .bool
    | .Int16 _ => value.i16.map fun v => .int v.toInt
    | .Int32 _ => value.i32.map fun v => .int v.toInt
    | .Int64 _ => value.i64.map fun v => .int v.toInt
    | .Float32 _ => (value.f32.map f64FromF32).map .float
    | .Float64 _ => value.f64.map .float
    | .Binary _ => value.bytes.map .blob
    | .Utf8 _ => value.string.map .text
    | .Date32 _ => (value.naiveDate.map naiveDateToDays).map fun v => .int v.toInt
    | .Time64 _ => (value.naiveTime.map naiveTimeToMicros).map fun v => .int v.toInt
    | .Timestamp _ => (timestampMicros value).map fun v => .int v.toInt
    | .Text _ kind => (decodeText value kind).map .text
    | .Unsupported name _ => .error (unmapped name)

/-! ### What a push adds -/

theorem new_length (names : List Str) : (new names).finish.length = 0 := by
  have harms : arms.all (fun arm => arm.2.finish.length == 0) = true := by decide
  unfold new
  dsimp only
  split
  · next arm hfound =>
    exact beq_iff_eq.mp (List.all_eq_true.mp harms arm (List.mem_of_find?_eq_some hfound))
  · rfl

theorem finish_dataType (column : ColumnValues) : column.finish.dataType = column.dataType := by
  cases column <;> rfl

theorem grew_pushNull (column : ColumnValues) :
    Grew dataType cell finish column column.pushNull .null := by
  have hlength {α : Type} (values : List (Option α)) :
      (values.map Option.isSome).length = values.length := List.length_map ..
  cases column with
  | _ =>
    refine ⟨rfl, rfl, ?_, fun row => ?_⟩
    · simp [pushNull, finish, ArrowArray.length, ArrowArray.valid]
    · simp only [pushNull, finish, ArrowArray.length, ArrowArray.valid, ArrowArray.cell, hlength]
      exact slotValue_grow _ none _ row

theorem push_error (column : ColumnValues) (raw : Option RowValue) (err : DbError) :
    column.push raw = .error err ↔ column.cell raw = .error err := by
  cases raw with
  | none => exact ⟨fun h => (by cases h), fun h => (by cases h)⟩
  | some value =>
    cases column with
    | Unsupported name values => simp only [push, cell, Except.error.injEq]
    | _ => simp only [push, cell, pushSlot, map_eq_error_iff]

theorem push_grew (column : ColumnValues) (raw : Option RowValue) (next : ColumnValues)
    (h : column.push raw = .ok next) :
    ∃ value, column.cell raw = .ok value ∧ Grew dataType cell finish column next value := by
  cases raw with
  | none =>
    rw [← Except.ok.inj h]
    exact ⟨.null, rfl, grew_pushNull column⟩
  | some value =>
    have hlength {α : Type} (values : List (Option α)) :
        (values.map Option.isSome).length = values.length := List.length_map ..
    cases column with
    | Unsupported name values => cases h
    | Int16 values =>
      obtain ⟨slot, hslot, rfl⟩ := map_eq_ok_iff.mp h
      obtain ⟨v, hv, rfl⟩ := map_eq_ok_iff.mp hslot
      refine ⟨_, map_eq_ok_iff.mpr ⟨v, hv, rfl⟩, rfl, rfl, ?_, fun row => ?_⟩
      · simp [finish, ArrowArray.length, ArrowArray.valid]
      · simp only [finish, ArrowArray.length, ArrowArray.valid, ArrowArray.cell, hlength]
        rw [slotValue_grow, Option.elim_some, Int16.toInt_toInt64]
    | Int32 values =>
      obtain ⟨slot, hslot, rfl⟩ := map_eq_ok_iff.mp h
      obtain ⟨v, hv, rfl⟩ := map_eq_ok_iff.mp hslot
      refine ⟨_, map_eq_ok_iff.mpr ⟨v, hv, rfl⟩, rfl, rfl, ?_, fun row => ?_⟩
      · simp [finish, ArrowArray.length, ArrowArray.valid]
      · simp only [finish, ArrowArray.length, ArrowArray.valid, ArrowArray.cell, hlength]
        rw [slotValue_grow, Option.elim_some, Int32.toInt_toInt64]
    | _ =>
      obtain ⟨slot, hslot, rfl⟩ := map_eq_ok_iff.mp h
      refine ⟨_, map_eq_ok_iff.mpr ⟨slot, hslot, rfl⟩, rfl, rfl, ?_, fun row => ?_⟩
      · simp [finish, ArrowArray.length, ArrowArray.valid]
      · simp only [finish, ArrowArray.length, ArrowArray.valid, ArrowArray.cell, hlength]
        exact slotValue_grow _ (some slot) _ row

end ColumnValues

/-- `ColumnValues` over the rows of sqlx. -/
def columnReader : DeclaredReader (Option RowValue) ColumnValues where
  typeName := fun raw => raw.map RowValue.typeName
  new := ColumnValues.new
  push := ColumnValues.push
  dataType := ColumnValues.dataType
  finish := ColumnValues.finish
  new_length := ColumnValues.new_length
  push_length := fun column raw next h => by
    obtain ⟨_, _, hgrew⟩ := ColumnValues.push_grew column raw next h
    exact hgrew.length
  cell := ColumnValues.cell
  new_first := fun _ _ => rfl
  push_ok := ColumnValues.push_grew
  push_error := ColumnValues.push_error
  finish_dataType := ColumnValues.finish_dataType

end Postgres

end FsspecDb
