import FsspecDb.Stream.Declared

/-!
# Columns of a MySQL query (mysql.rs, `ColumnValues`)

What sqlx makes of a stored value is a parameter: a value that is not NULL carries the name of
its type and what `try_get` gives at each Rust type that `push` asks for.
-/

namespace FsspecDb

namespace MySql
open Text Checked FsspecDb.Stream

/-- A value of a row that is not NULL. A date is its days since 1970-01-01, a time stamp its
`timestamp_micros`, a decimal number and a JSON value their text. -/
structure RowValue where
  typeName : Str
  bool : Except DbError Bool
  i64 : Except DbError Int64
  u64 : Except DbError UInt64
  f32 : Except DbError UInt32
  f64 : Except DbError UInt64
  bytes : Except DbError (List Byte)
  string : Except DbError Str
  naiveDate : Except DbError Int
  dateTimeUtc : Except DbError Int64
  naiveDateTime : Except DbError Int64
  bigDecimal : Except DbError Str
  jsonValue : Except DbError Str

inductive ColumnValues where
  | Bool (values : List (Option Bool))
  | SignedInt (values : List (Option Int64))
  | UnsignedInt (values : List (Option Int64))
  | Float32 (values : List (Option UInt64))
  | Float64 (values : List (Option UInt64))
  | Binary (values : List (Option (List Byte)))
  | Utf8 (values : List (Option Str))
  | Date32 (values : List (Option Int32))
  | Timestamp (values : List (Option Int64))
  | Decimal (values : List (Option Str))
  | Json (values : List (Option Str))
  | Unsupported (name : Str) (values : List (Option Str))
  deriving Repr, DecidableEq

def naiveDateToDays (date : Int) : Int32 := Int32.ofInt date

def timestampMicros (value : RowValue) : Except DbError Int64 :=
  match value.dateTimeUtc with
  | .ok micros => .ok micros
  | .error _ => value.naiveDateTime

/- `i64::try_from` of an unsigned value. -/
def unsignedAsI64 (value : UInt64) : Except DbError Int64 :=
  if value.toNat < 2 ^ 63 then .ok (Int64.ofNat value.toNat)
  else .error (.InvalidArgument "MySQL unsigned integer does not fit in Arrow Int64".toList)

def unmapped (name : Str) : DbError :=
  .NotSupported ("MySQL query output type is not yet mapped to Arrow: ".toList ++ name)

namespace ColumnValues

/- The arms of the `match` in `new`. -/
def arms : List (List String × ColumnValues) :=
  [(["BOOLEAN"], .Bool []),
    (["TINYINT", "SMALLINT", "MEDIUMINT", "INT", "BIGINT", "YEAR"], .SignedInt []),
    (["TINYINT UNSIGNED", "SMALLINT UNSIGNED", "MEDIUMINT UNSIGNED", "INT UNSIGNED",
      "BIGINT UNSIGNED", "BIT"], .UnsignedInt []),
    (["FLOAT"], .Float32 []),
    (["DOUBLE"], .Float64 []),
    (["BINARY", "VARBINARY", "TINYBLOB", "BLOB", "MEDIUMBLOB", "LONGBLOB"], .Binary []),
    (["CHAR", "VARCHAR", "TINYTEXT", "TEXT", "MEDIUMTEXT", "LONGTEXT", "ENUM", "SET", "NULL"],
      .Utf8 []),
    (["DATE"], .Date32 []),
    (["DATETIME", "TIMESTAMP"], .Timestamp []),
    (["DECIMAL"], .Decimal []),
    (["JSON"], .Json [])]

def new (mysqlTypes : List Str) : ColumnValues :=
  let mysqlType := (mysqlTypes.head?.map toAsciiUppercase).getD "TEXT".toList
  match arms.find? fun arm => arm.1.any fun name => mysqlType = name.toList with
  | some arm => arm.2
  | none => .Unsupported mysqlType []

def pushNull : ColumnValues → ColumnValues
  | .Bool values => .Bool (values ++ [none])
  | .SignedInt values => .SignedInt (values ++ [none])
  | .UnsignedInt values => .UnsignedInt (values ++ [none])
  | .Float32 values => .Float32 (values ++ [none])
  | .Float64 values => .Float64 (values ++ [none])
  | .Binary values => .Binary (values ++ [none])
  | .Utf8 values => .Utf8 (values ++ [none])
  | .Date32 values => .Date32 (values ++ [none])
  | .Timestamp values => .Timestamp (values ++ [none])
  | .Decimal values => .Decimal (values ++ [none])
  | .Json values => .Json (values ++ [none])
  | .Unsupported name values => .Unsupported name (values ++ [none])

/- `values.push(Some(decoded?))`. -/
def pushSlot {α : Type} (column : List (Option α) → ColumnValues) (values : List (Option α))
    (decoded : Except DbError α) : Except DbError ColumnValues :=
  decoded.map fun value => column (values ++ [some value])

def push (column : ColumnValues) (raw : Option RowValue) : Except DbError ColumnValues :=
  match raw with
  | none => .ok column.pushNull
  | some value =>
    match column with
    | .Bool values => pushSlot .Bool values value.bool
    | .SignedInt values => pushSlot .SignedInt values value.i64
    | .UnsignedInt values => pushSlot .UnsignedInt values (value.u64 >>= unsignedAsI64)
    | .Float32 values => pushSlot .Float32 values (value.f32.map f64FromF32)
    | .Float64 values => pushSlot .Float64 values value.f64
    | .Binary values => pushSlot .Binary values value.bytes
    | .Utf8 values => pushSlot .Utf8 values value.string
    | .Date32 values => pushSlot .Date32 values (value.naiveDate.map naiveDateToDays)
    | .Timestamp values => pushSlot .Timestamp values (timestampMicros value)
    | .Decimal values => pushSlot .Decimal values value.bigDecimal
    | .Json values => pushSlot .Json values value.jsonValue
    | .Unsupported name _ => .error (unmapped name)

def dataType : ColumnValues → DataType
  | .Bool _ => .Boolean
  | .SignedInt _ | .UnsignedInt _ => .Int64
  | .Float32 _ | .Float64 _ => .Float64
  | .Binary _ => .Binary
  | .Utf8 _ | .Unsupported _ _ | .Decimal _ | .Json _ => .Utf8
  | .Date32 _ => .Date32
  | .Timestamp _ => .Timestamp .Microsecond none

def finish : ColumnValues → ArrowArray
  | .Bool values => .boolean values
  | .SignedInt values | .UnsignedInt values => .int64 values
  | .Float32 values | .Float64 values => .float64 values
  | .Binary values => .binary values
  | .Utf8 values | .Unsupported _ values | .Decimal values | .Json values => .utf8 values
  | .Date32 values => .date32 values
  | .Timestamp values => .timestamp .Microsecond none values

/-- What a value of the column says in the batch. -/
def cell (column : ColumnValues) (raw : Option RowValue) : Except DbError CellValue :=
  match raw with
  | none => .ok .null
  | some value =>
    match column with
    | .Bool _ => value.bool.map .bool
    | .SignedInt _ => value.i64.map fun v => .int v.toInt
    | .UnsignedInt _ => value.u64 >>= fun v => (unsignedAsI64 v).map fun _ => .int v.toNat
    | .Float32 _ => (value.f32.map f64FromF32).map .float
    | .Float64 _ => value.f64.map .float
    | .Binary _ => value.bytes.map .blob
    | .Utf8 _ => value.string.map .text
    | .Date32 _ => (value.naiveDate.map naiveDateToDays).map fun v => .int v.toInt
    | .Timestamp _ => (timestampMicros value).map fun v => .int v.toInt
    | .Decimal _ => value.bigDecimal.map .text
    | .Json _ => value.jsonValue.map .text
    | .Unsupported name _ => .error (unmapped name)

/-! ### What a push adds -/

theorem new_length (names : List Str) : (new names).finish.length = 0 := by
  have harms : arms.all (fun arm => arm.2.finish.length == 0) = true := by decide
  unfold new
  dsimp only
  split
  · next arm hfound =>
    exact beq_iff_eq.mp (List.all_eq_true.mp harms arm (List.mem_of_find?_eq_some hfound))
  · rfl

theorem finish_dataType (column : ColumnValues) : column.finish.dataType = column.dataType := by
  cases column <;> rfl

theorem grew_pushNull (column : ColumnValues) :
    Grew dataType cell finish column column.pushNull .null := by
  have hlength {α : Type} (values : List (Option α)) :
      (values.map Option.isSome).length = values.length := List.length_map ..
  cases column with
  | _ =>
    refine ⟨rfl, rfl, ?_, fun row => ?_⟩
    · simp [pushNull, finish, ArrowArray.length, ArrowArray.valid]
    · simp only [pushNull, finish, ArrowArray.length, ArrowArray.valid, ArrowArray.cell, hlength]
      exact slotValue_grow _ none _ row

theorem push_error (column : ColumnValues) (raw : Option RowValue) (err : DbError) :
    column.push raw = .error err ↔ column.cell raw = .error err := by
  cases raw with
  | none => exact ⟨fun h => (by cases h), fun h => (by cases h)⟩
  | some value =>
    cases column with
    | Unsupported name values => simp only [push, cell, Except.error.injEq]
    | UnsignedInt values =>
      simp only [push, cell, pushSlot, map_eq_error_iff, bind_eq_error_iff]
    | _ => simp only [push, cell, pushSlot, map_eq_error_iff]

theorem push_grew (column : ColumnValues) (raw : Option RowValue) (next : ColumnValues)
    (h : column.push raw = .ok next) :
    ∃ value, column.cell raw = .ok value ∧ Grew dataType cell finish column next value := by
  cases raw with
  | none =>
    rw [← Except.ok.inj h]
    exact ⟨.null, rfl, grew_pushNull column⟩
  | some value =>
    have hlength {α : Type} (values : List (Option α)) :
        (values.map Option.isSome).length = values.length := List.length_map ..
    cases column with
    | Unsupported name values => cases h
    | UnsignedInt values =>
      obtain ⟨slot, hslot, rfl⟩ := map_eq_ok_iff.mp h
      obtain ⟨v, hv, hchecked⟩ := bind_eq_ok_iff.mp hslot
      have hexact : slot.toInt = v.toNat := by
        unfold unsignedAsI64 at hchecked
        split at hchecked
        · next hlt =>
          rw [← Except.ok.inj hchecked]
          exact Int64.toInt_ofNat_of_lt hlt
        · cases hchecked
      refine ⟨_, bind_eq_ok_iff.mpr ⟨v, hv, map_eq_ok_iff.mpr ⟨slot, hchecked, rfl⟩⟩, rfl, rfl,
        ?_, fun row => ?_⟩
      · simp [finish, ArrowArray.length, ArrowArray.valid]
      · simp only [finish, ArrowArray.length, ArrowArray.valid, ArrowArray.cell, hlength]
        rw [slotValue_grow, Option.elim_some, hexact]
    | _ =>
      obtain ⟨slot, hslot, rfl⟩ := map_eq_ok_iff.mp h
      refine ⟨_, map_eq_ok_iff.mpr ⟨slot, hslot, rfl⟩, rfl, rfl, ?_, fun row => ?_⟩
      · simp [finish, ArrowArray.length, ArrowArray.valid]
      · simp only [finish, ArrowArray.length, ArrowArray.valid, ArrowArray.cell, hlength]
        exact slotValue_grow _ (some slot) _ row

end ColumnValues

/-- `ColumnValues` over the rows of sqlx. -/
def columnReader : DeclaredReader (Option RowValue) ColumnValues where
  typeName := fun raw => raw.map RowValue.typeName
  new := ColumnValues.new
  push := ColumnValues.push
  dataType := ColumnValues.dataType
  finish := ColumnValues.finish
  new_length := ColumnValues.new_length
  push_length := fun column raw next h => by
    obtain ⟨_, _, hgrew⟩ := ColumnValues.push_grew column raw next h
    exact hgrew.length
  cell := ColumnValues.cell
  new_first := fun _ _ => rfl
  push_ok := ColumnValues.push_grew
  push_error := ColumnValues.push_error
  finish_dataType := ColumnValues.finish_dataType

end MySql

end FsspecDb
