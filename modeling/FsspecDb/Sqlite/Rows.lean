import FsspecDb.Arrow
import FsspecDb.Float
import FsspecDb.Text
import FsspecDb.Utf8

/-!
# From SQLite rows to a record batch (sqlite.rs)

The Arrow type of a column is inferred for each chunk from the declared type
name of the column and the runtime type names of the chunk's non-null values;
each value is then decoded to that type.
-/

namespace FsspecDb.Sqlite
open Text

inductive SqliteValue where
  | null
  | integer (value : Int64)
  | real (bits : UInt64)
  | text (value : Str)
  | blob (value : List Byte)
  deriving Repr, DecidableEq

namespace SqliteValue

def isNull : SqliteValue → Bool
  | .null => true
  | _ => false

def typeName : SqliteValue → Str
  | .null => "NULL".toList
  | .integer _ => "INTEGER".toList
  | .real _ => "REAL".toList
  | .text _ => "TEXT".toList
  | .blob _ => "BLOB".toList

end SqliteValue

abbrev SqliteRow := List SqliteValue

/- The typed `row.try_get` of sqlx: it answers when the runtime type matches. -/
def mismatched : DbError := .Other "mismatched types".toList

def tryGetI64 : SqliteValue → Except DbError Int64
  | .integer value => .ok value
  | _ => .error mismatched

def tryGetBool : SqliteValue → Except DbError Bool
  | .integer value => .ok (value != 0)
  | _ => .error mismatched

def tryGetF64 : SqliteValue → Except DbError UInt64
  | .real bits => .ok bits
  | _ => .error mismatched

def tryGetString : SqliteValue → Except DbError Str
  | .text value => .ok value
  | _ => .error mismatched

def tryGetBytes : SqliteValue → Except DbError (List Byte)
  | .blob value => .ok value
  | _ => .error mismatched

def int64Text (value : Int64) : Str := (toString value.toInt).toList

def boolText (value : Bool) : Str := if value then "true".toList else "false".toList

/- The type-name tests that the decoders and `ColumnValues::new` share. -/
def isText (name : Str) : Bool := contains name "text".toList || contains name "char".toList
def isBlob (name : Str) : Bool := contains name "blob".toList
def isReal (name : Str) : Bool :=
  contains name "real".toList || contains name "floa".toList || contains name "doub".toList
def isBool (name : Str) : Bool := contains name "bool".toList
def isInt (name : Str) : Bool := contains name "int".toList

def notSupported (what name : Str) : DbError := .NotSupported (what ++ name)

def decodeSqliteBool (value : SqliteValue) (name : Str) : Except DbError Bool :=
  if isBool name then tryGetBool value
  else if isInt name then (tryGetI64 value).map (· != 0)
  else .error (notSupported "SQLite value type cannot be decoded as bool: ".toList name)

def decodeSqliteI64 (value : SqliteValue) (name : Str) : Except DbError Int64 :=
  if isBool name then (tryGetBool value).map fun b => if b then 1 else 0
  else if isInt name then tryGetI64 value
  else .error (notSupported
    "SQLite value type cannot be decoded as integer without loss: ".toList name)

def decodeSqliteF64 (value : SqliteValue) (name : Str) : Except DbError UInt64 :=
  if isReal name then tryGetF64 value
  else if isBool name then (tryGetBool value).map fun b => if b then f64One else f64Zero
  else if isInt name then (tryGetI64 value).map f64FromI64
  else .error (notSupported "SQLite value type cannot be decoded as float: ".toList name)

def decodeSqliteUtf8 (floats : FloatText) (value : SqliteValue) (name : Str) :
    Except DbError Str :=
  if isText name then tryGetString value
  else if isBlob name then (tryGetBytes value).map Utf8.fromUtf8Lossy
  else if isReal name then (tryGetF64 value).map floats.f64
  else if isBool name then (tryGetBool value).map boolText
  else if isInt name then (tryGetI64 value).map int64Text
  else .error (notSupported "SQLite value type cannot be decoded as text: ".toList name)

def decodeSqliteBinary (floats : FloatText) (value : SqliteValue) (name : Str) :
    Except DbError (List Byte) :=
  if isBlob name then tryGetBytes value
  else (decodeSqliteUtf8 floats value name).map Utf8.encode

inductive ColumnValues where
  | Bool (values : List (Option Bool))
  | Int64 (values : List (Option Int64))
  | Float64 (values : List (Option UInt64))
  | Binary (values : List (Option (List Byte)))
  | Utf8 (values : List (Option Str))
  deriving Repr, DecidableEq

namespace ColumnValues

def new (sqliteTypes : List Str) : ColumnValues :=
  let names := sqliteTypes.map toAsciiLowercase
  if names.any isText then .Utf8 []
  else if names.any isBlob then .Binary []
  else if names.any isReal then .Float64 []
  else if names.any isBool then .Bool []
  else if names.any isInt then .Int64 []
  else .Utf8 []

def pushNull : ColumnValues → ColumnValues
  | .Bool values => .Bool (values ++ [none])
  | .Int64 values => .Int64 (values ++ [none])
  | .Float64 values => .Float64 (values ++ [none])
  | .Binary values => .Binary (values ++ [none])
  | .Utf8 values => .Utf8 (values ++ [none])

def push (floats : FloatText) (column : ColumnValues) (raw : SqliteValue) :
    Except DbError ColumnValues :=
  if raw.isNull then .ok column.pushNull
  else
    let name := toAsciiLowercase raw.typeName
    match column with
    | .Bool values => (decodeSqliteBool raw name).map fun v => .Bool (values ++ [some v])
    | .Int64 values => (decodeSqliteI64 raw name).map fun v => .Int64 (values ++ [some v])
    | .Float64 values => (decodeSqliteF64 raw name).map fun v => .Float64 (values ++ [some v])
    | .Binary values =>
      (decodeSqliteBinary floats raw name).map fun v => .Binary (values ++ [some v])
    | .Utf8 values => (decodeSqliteUtf8 floats raw name).map fun v => .Utf8 (values ++ [some v])

def dataType : ColumnValues → DataType
  | .Bool _ => .Boolean
  | .Int64 _ => .Int64
  | .Float64 _ => .Float64
  | .Binary _ => .Binary
  | .Utf8 _ => .Utf8

def finish : ColumnValues → ArrowArray
  | .Bool values => .boolean values
  | .Int64 values => .int64 values
  | .Float64 values => .float64 values
  | .Binary values => .binary values
  | .Utf8 values => .utf8 values

def length : ColumnValues → Nat
  | .Bool values => values.length
  | .Int64 values => values.length
  | .Float64 values => values.length
  | .Binary values => values.length
  | .Utf8 values => values.length

@[simp]
theorem finish_dataType (c : ColumnValues) : c.finish.dataType = c.dataType := by
  cases c <;> rfl

@[simp]
theorem finish_length (c : ColumnValues) : c.finish.length = c.length := by
  cases c <;> simp [finish, ArrowArray.length, ArrowArray.valid, length]

end ColumnValues

end FsspecDb.Sqlite
