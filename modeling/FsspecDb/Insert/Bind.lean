import FsspecDb.Arrow
import FsspecDb.Float
import FsspecDb.Sql.Statements

/-!
# What is bound for a cell (sqlite.rs and mysql.rs, `bind_arrow_value`)

SQLite gets every integer as an `i64` and every float as an `f64`; MySQL gets them as
they are, and no temporal types.
-/

namespace FsspecDb

inductive Argument where
  | Null
  | Bool (value : Bool)
  | Int8 (value : Int8)
  | Int16 (value : Int16)
  | Int32 (value : Int32)
  | Int64 (value : Int64)
  | UInt8 (value : UInt8)
  | UInt16 (value : UInt16)
  | UInt32 (value : UInt32)
  | UInt64 (value : UInt64)
  | Float32 (bits : UInt32)
  | Float64 (bits : UInt64)
  | Text (value : Str)
  | Blob (value : List Byte)
  deriving Repr, DecidableEq

def TimeUnit.debug : TimeUnit → Str
  | .Second => "Second".toList
  | .Millisecond => "Millisecond".toList
  | .Microsecond => "Microsecond".toList
  | .Nanosecond => "Nanosecond".toList

/-- `{:?}` of the data types that a backend refuses. -/
def DataType.debug : DataType → Str
  | .Null => "Null".toList
  | .Boolean => "Boolean".toList
  | .Int8 => "Int8".toList
  | .Int16 => "Int16".toList
  | .Int32 => "Int32".toList
  | .Int64 => "Int64".toList
  | .UInt8 => "UInt8".toList
  | .UInt16 => "UInt16".toList
  | .UInt32 => "UInt32".toList
  | .UInt64 => "UInt64".toList
  | .Float32 => "Float32".toList
  | .Float64 => "Float64".toList
  | .Utf8 => "Utf8".toList
  | .LargeUtf8 => "LargeUtf8".toList
  | .Binary => "Binary".toList
  | .LargeBinary => "LargeBinary".toList
  | .Date32 => "Date32".toList
  | .Date64 => "Date64".toList
  | .Time32 unit => "Time32(".toList ++ unit.debug ++ [')']
  | .Time64 unit => "Time64(".toList ++ unit.debug ++ [')']
  | .Timestamp unit none => "Timestamp(".toList ++ unit.debug ++ ", None)".toList
  | .Timestamp unit (some timezone) =>
    "Timestamp(".toList ++ unit.debug ++ ", Some(".toList ++ Sql.debugStr timezone ++ "))".toList
  | .Unsupported name => name

/-- `array.value(row)` of a slot that holds a value, and NULL of one that does not. -/
def bindSlot {α : Type} (values : List (Option α)) (row : Nat) (bind : α → Argument) : Argument :=
  match values[row]? with
  | some (some value) => bind value
  | _ => .Null

namespace Sqlite

def insertNotSupported (dataType : DataType) : DbError :=
  .NotSupported ("SQLite insert does not support Arrow type ".toList ++ dataType.debug)

def bindTemporalValue (array : ArrowArray) (row : Nat) : Except DbError Argument :=
  match array with
  | .date32 values => .ok (bindSlot values row fun v => .Int64 v.toInt64)
  | .date64 values => .ok (bindSlot values row .Int64)
  | .time32 unit values =>
    match unit with
    | .Second | .Millisecond => .ok (bindSlot values row fun v => .Int64 v.toInt64)
    | _ => .error (insertNotSupported array.dataType)
  | .time64 unit values =>
    match unit with
    | .Microsecond | .Nanosecond => .ok (bindSlot values row .Int64)
    | _ => .error (insertNotSupported array.dataType)
  | .timestamp _ _ values => .ok (bindSlot values row .Int64)
  | _ => .error (insertNotSupported array.dataType)

def bindArrowValue (array : ArrowArray) (row : Nat) : Except DbError Argument :=
  if array.isNull row then .ok .Null
  else
    match array with
    | .null _ => .ok .Null
    | .boolean values => .ok (bindSlot values row .Bool)
    | .int8 values => .ok (bindSlot values row fun v => .Int64 v.toInt64)
    | .int16 values => .ok (bindSlot values row fun v => .Int64 v.toInt64)
    | .int32 values => .ok (bindSlot values row fun v => .Int64 v.toInt64)
    | .int64 values => .ok (bindSlot values row .Int64)
    | .uint8 values => .ok (bindSlot values row fun v => .Int64 (Int64.ofNat v.toNat))
    | .uint16 values => .ok (bindSlot values row fun v => .Int64 (Int64.ofNat v.toNat))
    | .uint32 values => .ok (bindSlot values row fun v => .Int64 (Int64.ofNat v.toNat))
    | .uint64 values =>
      match values[row]? with
      | some (some value) =>
        if value.toNat < 2 ^ 63 then .ok (.Int64 (Int64.ofNat value.toNat))
        else .error (.InvalidArgument "UInt64 value does not fit in SQLite INTEGER".toList)
      | _ => .ok .Null
    | .float32 values => .ok (bindSlot values row fun v => .Float64 (f64FromF32 v))
    | .float64 values => .ok (bindSlot values row .Float64)
    | .utf8 values | .largeUtf8 values => .ok (bindSlot values row .Text)
    | .binary values | .largeBinary values => .ok (bindSlot values row .Blob)
    | .date32 _ | .date64 _ | .time32 _ _ | .time64 _ _ | .timestamp _ _ _ =>
      bindTemporalValue array row
    | .unsupported _ _ => .error (insertNotSupported array.dataType)

end Sqlite

namespace MySql

def bindArrowValue (array : ArrowArray) (row : Nat) : Except DbError Argument :=
  if array.isNull row then .ok .Null
  else
    match array with
    | .null _ => .ok .Null
    | .boolean values => .ok (bindSlot values row .Bool)
    | .int8 values => .ok (bindSlot values row .Int8)
    | .int16 values => .ok (bindSlot values row .Int16)
    | .int32 values => .ok (bindSlot values row .Int32)
    | .int64 values => .ok (bindSlot values row .Int64)
    | .uint8 values => .ok (bindSlot values row .UInt8)
    | .uint16 values => .ok (bindSlot values row .UInt16)
    | .uint32 values => .ok (bindSlot values row .UInt32)
    | .uint64 values => .ok (bindSlot values row .UInt64)
    | .float32 values => .ok (bindSlot values row .Float32)
    | .float64 values => .ok (bindSlot values row .Float64)
    | .utf8 values | .largeUtf8 values => .ok (bindSlot values row .Text)
    | .binary values | .largeBinary values => .ok (bindSlot values row .Blob)
    | _ => .error (.NotSupported
      ("MySQL insert does not support Arrow type ".toList ++ array.dataType.debug))

end MySql

/-! ### The value of a cell -/

/-- What a cell or an argument says, without the width of its type. -/
inductive CellValue where
  | null
  | bool (value : Bool)
  | int (value : Int)
  | float (bits : UInt64)
  | text (value : Str)
  | blob (value : List Byte)
  deriving Repr, DecidableEq

def Argument.value : Argument → CellValue
  | .Null => .null
  | .Bool value => .bool value
  | .Int8 value => .int value.toInt
  | .Int16 value => .int value.toInt
  | .Int32 value => .int value.toInt
  | .Int64 value => .int value.toInt
  | .UInt8 value => .int value.toNat
  | .UInt16 value => .int value.toNat
  | .UInt32 value => .int value.toNat
  | .UInt64 value => .int value.toNat
  | .Float32 bits => .float (f64FromF32 bits)
  | .Float64 bits => .float bits
  | .Text value => .text value
  | .Blob value => .blob value

def slotValue {α : Type} (values : List (Option α)) (row : Nat) (value : α → CellValue) :
    CellValue :=
  match values[row]? with
  | some (some v) => value v
  | _ => .null

/-- The cell of an array; temporal values are their numbers. -/
def ArrowArray.cell (array : ArrowArray) (row : Nat) : CellValue :=
  match array with
  | .null _ => .null
  | .boolean values => slotValue values row .bool
  | .int8 values => slotValue values row fun v => .int v.toInt
  | .int16 values => slotValue values row fun v => .int v.toInt
  | .int32 values => slotValue values row fun v => .int v.toInt
  | .int64 values => slotValue values row fun v => .int v.toInt
  | .uint8 values => slotValue values row fun v => .int v.toNat
  | .uint16 values => slotValue values row fun v => .int v.toNat
  | .uint32 values => slotValue values row fun v => .int v.toNat
  | .uint64 values => slotValue values row fun v => .int v.toNat
  | .float32 values => slotValue values row fun v => .float (f64FromF32 v)
  | .float64 values => slotValue values row .float
  | .utf8 values => slotValue values row .text
  | .largeUtf8 values => slotValue values row .text
  | .binary values => slotValue values row .blob
  | .largeBinary values => slotValue values row .blob
  | .date32 values => slotValue values row fun v => .int v.toInt
  | .date64 values => slotValue values row fun v => .int v.toInt
  | .time32 _ values => slotValue values row fun v => .int v.toInt
  | .time64 _ values => slotValue values row fun v => .int v.toInt
  | .timestamp _ _ values => slotValue values row fun v => .int v.toInt
  | .unsupported _ _ => .null

theorem bindSlot_value {α : Type} (values : List (Option α)) (row : Nat) (bind : α → Argument) :
    (bindSlot values row bind).value = slotValue values row fun v => (bind v).value := by
  unfold bindSlot slotValue
  split <;> rfl

theorem slotValue_of_invalid {α : Type} (values : List (Option α)) (row : Nat)
    (value : α → CellValue) (h : (values.map Option.isSome)[row]? = some false) :
    slotValue values row value = .null := by
  rw [List.getElem?_map, Option.map_eq_some_iff] at h
  obtain ⟨slot, hslot, hnone⟩ := h
  rw [slotValue, hslot, Option.isSome_eq_false_iff.mp hnone |> Option.isNone_iff_eq_none.mp]

theorem cell_of_isNull (array : ArrowArray) (row : Nat) (h : array.isNull row = true) :
    array.cell row = .null := by
  rw [ArrowArray.isNull, decide_eq_true_iff] at h
  cases array with
  | null | unsupported => rfl
  | _ => exact slotValue_of_invalid _ row _ h

theorem Sqlite.bindTemporalValue_value (array : ArrowArray) (row : Nat) (argument : Argument)
    (h : Sqlite.bindTemporalValue array row = .ok argument) : argument.value = array.cell row := by
  have hslot {α : Type} (values : List (Option α)) (bind : α → Argument)
      (hok : Except.ok (bindSlot values row bind) = Except.ok (ε := DbError) argument) :
      argument.value = slotValue values row fun v => (bind v).value := by
    rw [← Except.ok.inj hok, bindSlot_value]
  cases array with
  | date32 values =>
    rw [hslot values _ h]
    simp [Argument.value, ArrowArray.cell]
  | date64 values => exact hslot values _ h
  | time32 unit values =>
    cases unit with
    | Second | Millisecond =>
      rw [hslot values _ h]
      simp [Argument.value, ArrowArray.cell]
    | Microsecond | Nanosecond => simp [Sqlite.bindTemporalValue] at h
  | time64 unit values =>
    cases unit with
    | Microsecond | Nanosecond => exact hslot values _ h
    | Second | Millisecond => simp [Sqlite.bindTemporalValue] at h
  | timestamp unit timezone values => exact hslot values _ h
  | _ => simp [Sqlite.bindTemporalValue] at h

theorem Sqlite.bindArrowValue_value (array : ArrowArray) (row : Nat) (argument : Argument)
    (h : Sqlite.bindArrowValue array row = .ok argument) : argument.value = array.cell row := by
  have hunsigned (n : Nat) (hn : n < 2 ^ 63) : (Int64.ofNat n).toInt = n :=
    Int64.toInt_ofNat_of_lt hn
  unfold Sqlite.bindArrowValue at h
  split at h
  · next hnull =>
    rw [← Except.ok.inj h, cell_of_isNull array row hnull]
    rfl
  · cases array with
    | null n =>
      rw [← Except.ok.inj h]
      rfl
    | uint8 values =>
      rw [← Except.ok.inj h, bindSlot_value]
      simp only [Argument.value, hunsigned _ (Nat.lt_trans (UInt8.toNat_lt _) (by decide))]
      rfl
    | uint16 values =>
      rw [← Except.ok.inj h, bindSlot_value]
      simp only [Argument.value, hunsigned _ (Nat.lt_trans (UInt16.toNat_lt _) (by decide))]
      rfl
    | uint32 values =>
      rw [← Except.ok.inj h, bindSlot_value]
      simp only [Argument.value, hunsigned _ (Nat.lt_trans (UInt32.toNat_lt _) (by decide))]
      rfl
    | uint64 values =>
      dsimp only at h
      rw [ArrowArray.cell, slotValue]
      cases hvalue : values[row]? with
      | none =>
        rw [hvalue] at h
        rw [← Except.ok.inj h]
        rfl
      | some slot =>
        cases slot with
        | none =>
          rw [hvalue] at h
          rw [← Except.ok.inj h]
          rfl
        | some value =>
          simp only [hvalue] at h
          split at h
          · next hlt => rw [← Except.ok.inj h, Argument.value, hunsigned _ hlt]
          · simp at h
    | date32 | date64 | time32 | time64 | timestamp =>
      exact Sqlite.bindTemporalValue_value _ row argument h
    | unsupported name valid => simp at h
    | _ values =>
      rw [← Except.ok.inj h, bindSlot_value]
      simp [Argument.value, ArrowArray.cell]

theorem MySql.bindArrowValue_value (array : ArrowArray) (row : Nat) (argument : Argument)
    (h : MySql.bindArrowValue array row = .ok argument) : argument.value = array.cell row := by
  unfold MySql.bindArrowValue at h
  split at h
  · next hnull =>
    rw [← Except.ok.inj h, cell_of_isNull array row hnull]
    rfl
  · cases array with
    | null n =>
      rw [← Except.ok.inj h]
      rfl
    | date32 | date64 | time32 | time64 | timestamp | unsupported => simp at h
    | _ values =>
      rw [← Except.ok.inj h, bindSlot_value]
      rfl

end FsspecDb
