import FsspecDb.Ddl.Create
import FsspecDb.Insert.Bind
import FsspecDb.Sqlite.Batch

/-!
# A cell on its way through SQLite

The column types that SQLite gives back: what is bound for a cell of such a column, what is
stored for it, and that it is decoded to the cell it came from.
-/

namespace FsspecDb.Sqlite
open Text

/-- The types of a column up to the width of its integers and floats and of its offsets. -/
inductive ColumnKind where
  | boolean
  | integer
  | real
  | text
  | blob
  deriving Repr, DecidableEq

namespace ColumnKind

def ofType : DataType → Option ColumnKind
  | .Boolean => some .boolean
  | .Int8 | .Int16 | .Int32 | .Int64 | .UInt8 | .UInt16 | .UInt32 | .UInt64 => some .integer
  | .Float32 | .Float64 => some .real
  | .Utf8 | .LargeUtf8 => some .text
  | .Binary | .LargeBinary => some .blob
  | _ => none

/-- The type in the CREATE TABLE. -/
def sqlType : ColumnKind → Str
  | .boolean => "BOOLEAN".toList
  | .integer => "BIGINT".toList
  | .real => "DOUBLE".toList
  | .text => "VARCHAR".toList
  | .blob => "BLOB".toList

/-- The type that is read back. -/
def dataType : ColumnKind → DataType
  | .boolean => .Boolean
  | .integer => .Int64
  | .real => .Float64
  | .text => .Utf8
  | .blob => .Binary

def rank : ColumnKind → Nat
  | .boolean => 2
  | .integer => 1
  | .real => 3
  | .text => 5
  | .blob => 4

/-- The cells of a column: NULL, an integer of 64 bits, a float that is a number. -/
def Admits : ColumnKind → CellValue → Prop
  | _, .null => True
  | .boolean, .bool _ => True
  | .integer, .int value => -2 ^ 63 ≤ value ∧ value < 2 ^ 63
  | .real, .float bits => isNan64 bits = false
  | .text, .text _ => True
  | .blob, .blob _ => True
  | _, _ => False

theorem rankType_rank (kind : ColumnKind) : rankType kind.rank = kind.dataType := by
  cases kind <;> rfl

theorem admits_null (kind : ColumnKind) : kind.Admits .null := by
  cases kind <;> trivial

theorem hasSqlType (field : Ddl.PaField) (dataType : DataType) (kind : ColumnKind)
    (htype : field.type = .arrow dataType) (hkind : ofType dataType = some kind) :
    Ddl.HasSqlType field kind.sqlType where
  translated := by
    rw [Ddl.arrowTypeToSql, htype]
    cases dataType <;> cases hkind <;> rfl
  word := by
    cases kind <;> exact List.all_eq_true.mp (by decide)

end ColumnKind

/-- The values of an array that SQLite can hold: no `u64` beyond `i64` and no NaN. -/
def Storable : ArrowArray → Prop
  | .uint64 values => ∀ value, some value ∈ values → value.toNat < 2 ^ 63
  | .float32 values => ∀ bits, some bits ∈ values → isNan32 bits = false
  | .float64 values => ∀ bits, some bits ∈ values → isNan64 bits = false
  | _ => True

/-- What is bound for a cell, and what a column of its kind stores. -/
def sqliteArgument : CellValue → Argument
  | .null => .Null
  | .bool value => .Bool value
  | .int value => .Int64 (Int64.ofInt value)
  | .float bits => .Float64 bits
  | .text value => .Text value
  | .blob value => .Blob value

def sqliteCell : CellValue → SqliteValue
  | .null => .null
  | .bool value => .integer (if value then 1 else 0)
  | .int value => .integer (Int64.ofInt value)
  | .float bits => .real bits
  | .text value => .text value
  | .blob value => .blob value

/-! ### Binding a cell -/

theorem slotValue_admits {α : Type} (kind : ColumnKind) (values : List (Option α)) (row : Nat)
    (value : α → CellValue) (h : ∀ v, some v ∈ values → kind.Admits (value v)) :
    kind.Admits (slotValue values row value) := by
  unfold slotValue
  split
  · next hslot => exact h _ (List.mem_of_getElem? hslot)
  · exact kind.admits_null

theorem cell_admits (array : ArrowArray) (row : Nat) (kind : ColumnKind)
    (hkind : ColumnKind.ofType array.dataType = some kind) (hstorable : Storable array) :
    kind.Admits (array.cell row) := by
  cases array with
  | null | date32 | date64 | time32 | time64 | timestamp | unsupported => cases hkind
  | boolean values | utf8 values | largeUtf8 values | binary values | largeBinary values =>
    cases hkind
    exact slotValue_admits _ values row _ fun _ _ => trivial
  | int8 values | int16 values | int32 values | int64 values =>
    cases hkind
    refine slotValue_admits _ values row _ fun v _ => ?_
    have hlow := v.le_toInt
    have hhigh := v.toInt_lt
    constructor <;> omega
  | uint8 values | uint16 values | uint32 values =>
    cases hkind
    refine slotValue_admits _ values row _ fun v _ => ?_
    have hhigh := v.toNat_lt
    constructor <;> omega
  | uint64 values =>
    cases hkind
    refine slotValue_admits _ values row _ fun v hv => ?_
    have hhigh := hstorable v hv
    constructor <;> omega
  | float32 values =>
    cases hkind
    exact slotValue_admits _ values row _ fun bits hbits =>
      (isNan64_f64FromF32 bits).trans (hstorable bits hbits)
  | float64 values =>
    cases hkind
    exact slotValue_admits _ values row _ hstorable

theorem bindSlot_eq {α : Type} (values : List (Option α)) (row : Nat) (bind : α → Argument)
    (value : α → CellValue) (h : ∀ v, bind v = sqliteArgument (value v)) :
    bindSlot values row bind = sqliteArgument (slotValue values row value) := by
  unfold bindSlot slotValue
  split
  · exact h _
  · rfl

theorem bindArrowValue_eq (array : ArrowArray) (row : Nat) (kind : ColumnKind)
    (hkind : ColumnKind.ofType array.dataType = some kind) (hstorable : Storable array) :
    bindArrowValue array row = .ok (sqliteArgument (array.cell row)) := by
  unfold bindArrowValue
  split
  · next hnull =>
    rw [cell_of_isNull array row hnull]
    rfl
  · cases array with
    | uint64 values =>
      dsimp only
      rw [ArrowArray.cell, slotValue]
      rcases hslot : values[row]? with _ | _ | value
      · rfl
      · rfl
      · dsimp only
        rw [if_pos (hstorable value (List.mem_of_getElem? hslot)), ← Int64.ofInt_eq_ofNat]
        rfl
    | null | date32 | date64 | time32 | time64 | timestamp | unsupported => cases hkind
    | _ values =>
      refine congrArg Except.ok (bindSlot_eq values row _ _ fun v => ?_)
      simp [sqliteArgument, Int64.ofInt_eq_ofNat]

/-! ### Decoding a value -/

theorem slotValue_append_lt {α : Type} (values : List (Option α)) (slot : Option α) (row : Nat)
    (value : α → CellValue) (h : row < values.length) :
    slotValue (values ++ [slot]) row value = slotValue values row value := by
  rw [slotValue, slotValue, List.getElem?_append_left h]

theorem slotValue_append_length {α : Type} (values : List (Option α)) (slot : Option α)
    (value : α → CellValue) :
    slotValue (values ++ [slot]) values.length value = slot.elim .null value := by
  rw [slotValue, List.getElem?_concat_length]
  cases slot <;> rfl

/-- The column with one more cell, which is one of its kind or NULL. -/
def ColumnValues.append (column : ColumnValues) (cell : CellValue) : ColumnValues :=
  match column, cell with
  | .Bool values, .bool value => .Bool (values ++ [some value])
  | .Int64 values, .int value => .Int64 (values ++ [some (Int64.ofInt value)])
  | .Float64 values, .float bits => .Float64 (values ++ [some bits])
  | .Binary values, .blob value => .Binary (values ++ [some value])
  | .Utf8 values, .text value => .Utf8 (values ++ [some value])
  | column, _ => column.pushNull

/-- It keeps its type and its cells, and the new one is at its end. -/
structure Extends (column next : ColumnValues) (cell : CellValue) : Prop where
  dataType : next.dataType = column.dataType
  length : next.length = column.length + 1
  kept : ∀ row < column.length, next.finish.cell row = column.finish.cell row
  last : next.finish.cell column.length = cell

theorem extends_pushNull (column : ColumnValues) : Extends column column.pushNull .null := by
  cases column <;>
    exact ⟨rfl, List.length_append, fun row hrow => slotValue_append_lt _ _ row _ hrow,
      slotValue_append_length _ _ _⟩

theorem extends_append (kind : ColumnKind) (column : ColumnValues) (cell : CellValue)
    (htype : column.dataType = kind.dataType) (hcell : kind.Admits cell) :
    Extends column (column.append cell) cell := by
  cases cell with
  | null =>
    have hnull : column.append .null = column.pushNull := by cases column <;> rfl
    rw [hnull]
    exact extends_pushNull column
  | int value =>
    cases kind <;> try exact hcell.elim
    cases column <;> try cases htype
    refine ⟨rfl, List.length_append, fun row hrow => slotValue_append_lt _ _ row _ hrow,
      (slotValue_append_length _ _ _).trans ?_⟩
    exact congrArg CellValue.int (Int64.toInt_ofInt_of_le hcell.1 hcell.2)
  | bool _ | float _ | text _ | blob _ =>
    cases kind <;> try exact hcell.elim
    all_goals
      cases column <;> try cases htype
      exact ⟨rfl, List.length_append, fun row hrow => slotValue_append_lt _ _ row _ hrow,
        slotValue_append_length _ _ _⟩

/- Each of the four runtime types under the column of its kind. -/
theorem decode_integer (value : Int64) :
    decodeSqliteBool (.integer value) (toAsciiLowercase (SqliteValue.integer value).typeName) =
        .ok (value != 0) ∧
      decodeSqliteI64 (.integer value) (toAsciiLowercase (SqliteValue.integer value).typeName) =
        .ok value := by
  obtain ⟨_, _, _, h2, h1⟩ := integer_tests value
  simp [decodeSqliteBool, decodeSqliteI64, h2, h1, tryGetI64, Except.map]

theorem decode_real (bits : UInt64) :
    decodeSqliteF64 (.real bits) (toAsciiLowercase (SqliteValue.real bits).typeName) =
      .ok bits := by
  rw [decodeSqliteF64, if_pos (real_tests bits).2.2]
  rfl

theorem decode_text (floats : FloatText) (value : Str) :
    decodeSqliteUtf8 floats (.text value) (toAsciiLowercase (SqliteValue.text value).typeName) =
      .ok value := by
  rw [decodeSqliteUtf8, if_pos (text_tests value).1]
  rfl

theorem decode_blob (floats : FloatText) (value : List Byte) :
    decodeSqliteBinary floats (.blob value) (toAsciiLowercase (SqliteValue.blob value).typeName) =
      .ok value := by
  rw [decodeSqliteBinary, if_pos (blob_tests value).2]
  rfl

/-- A stored cell is decoded to the cell. -/
theorem push_cell (floats : FloatText) (kind : ColumnKind) (column : ColumnValues)
    (cell : CellValue) (htype : column.dataType = kind.dataType) (hcell : kind.Admits cell) :
    column.push floats (sqliteCell cell) = .ok (column.append cell) := by
  cases cell with
  | null => cases column <;> rfl
  | bool value =>
    cases kind <;> try exact hcell.elim
    cases column <;> try cases htype
    have hvalue : ((if value then 1 else 0 : Int64) != 0) = value := by cases value <;> decide
    simp only [ColumnValues.push, sqliteCell, SqliteValue.isNull, Bool.false_eq_true, if_false,
      (decode_integer _).1, hvalue, Except.map, ColumnValues.append]
  | int value =>
    cases kind <;> try exact hcell.elim
    cases column <;> try cases htype
    simp only [ColumnValues.push, sqliteCell, SqliteValue.isNull, Bool.false_eq_true, if_false,
      (decode_integer _).2, Except.map, ColumnValues.append]
  | float bits =>
    cases kind <;> try exact hcell.elim
    cases column <;> try cases htype
    simp only [ColumnValues.push, sqliteCell, SqliteValue.isNull, Bool.false_eq_true, if_false,
      decode_real, Except.map, ColumnValues.append]
  | text value =>
    cases kind <;> try exact hcell.elim
    cases column <;> try cases htype
    simp only [ColumnValues.push, sqliteCell, SqliteValue.isNull, Bool.false_eq_true, if_false,
      decode_text, Except.map, ColumnValues.append]
  | blob value =>
    cases kind <;> try exact hcell.elim
    cases column <;> try cases htype
    simp only [ColumnValues.push, sqliteCell, SqliteValue.isNull, Bool.false_eq_true, if_false,
      decode_blob, Except.map, ColumnValues.append]

end FsspecDb.Sqlite
