import FsspecDb.Error

/-!
# What a database tells about itself (types.rs)
-/

namespace FsspecDb

structure SchemaInfo where
  name : Str
  catalog : Option Str
  comment : Option Str
  deriving Repr, DecidableEq

inductive RelationKind where
  | Table
  | View
  deriving Repr, DecidableEq

def RelationKind.asStr : RelationKind → Str
  | .Table => "table".toList
  | .View => "view".toList

structure RelationInfo where
  name : Str
  kind : RelationKind
  rowCount : Option UInt64
  sizeBytes : Option UInt64
  comment : Option Str
  deriving Repr, DecidableEq

structure ColumnInfo where
  name : Str
  dataType : Str
  nullable : Bool
  default : Option Str
  ordinal : UInt32
  primaryKey : Bool
  comment : Option Str
  deriving Repr, DecidableEq

structure IndexInfo where
  name : Str
  columns : List Str
  unique : Bool
  method : Option Str
  deriving Repr, DecidableEq

inductive ConstraintKind where
  | PrimaryKey
  | ForeignKey
  | Unique
  | Check
  deriving Repr, DecidableEq

def ConstraintKind.asStr : ConstraintKind → Str
  | .PrimaryKey => "pk".toList
  | .ForeignKey => "fk".toList
  | .Unique => "unique".toList
  | .Check => "check".toList

structure ConstraintInfo where
  name : Str
  kind : ConstraintKind
  columns : List Str
  references : Option Str
  expr : Option Str
  deriving Repr, DecidableEq

inductive Dialect where
  | Generic
  | Sqlite
  | Postgres
  | MySql
  deriving Repr, DecidableEq

def Dialect.asStr : Dialect → Str
  | .Generic => "generic".toList
  | .Sqlite => "sqlite".toList
  | .Postgres => "postgres".toList
  | .MySql => "mysql".toList

inductive FileType where
  | File
  | Directory
  deriving Repr, DecidableEq

structure FileInfo where
  name : Str
  size : Nat
  fileType : FileType
  extra : List (Str × Str)
  deriving Repr, DecidableEq

namespace FileInfo

def file (name : Str) (size : Nat) : FileInfo := ⟨name, size, .File, []⟩

def directory (name : Str) : FileInfo := ⟨name, 0, .Directory, []⟩

def insert (info : FileInfo) (key value : Str) : FileInfo :=
  { info with extra := (key, value) :: info.extra.filter fun entry => entry.1 ≠ key }

/-- `if let Some(value) = value { info.extra.insert(key, value) }`. -/
def insertSome (info : FileInfo) (key : Str) (value : Option Str) : FileInfo :=
  match value with
  | some value => info.insert key value
  | none => info

def get (info : FileInfo) (key : Str) : Option Str := info.extra.lookup key

section
variable (info : FileInfo) (key value : Str) (optional : Option Str)

@[simp]
theorem insert_name : (info.insert key value).name = info.name := rfl

@[simp]
theorem insertSome_name : (info.insertSome key optional).name = info.name := by
  cases optional <;> rfl

@[simp]
theorem insert_fileType : (info.insert key value).fileType = info.fileType := rfl

@[simp]
theorem insertSome_fileType : (info.insertSome key optional).fileType = info.fileType := by
  cases optional <;> rfl

end

@[simp]
theorem insert_get_self (info : FileInfo) (key value : Str) :
    (info.insert key value).get key = some value := by
  simp only [insert, get, List.lookup_cons, beq_self_eq_true]

theorem insert_get_ne (info : FileInfo) (key key' value : Str) (h : key' ≠ key) :
    (info.insert key value).get key' = info.get key' := by
  have hbeq : (key' == key) = false := by simpa using h
  simp only [insert, get, List.lookup_cons, hbeq]
  induction info.extra with
  | nil => rfl
  | cons entry rest ih =>
    obtain ⟨k, v⟩ := entry
    by_cases hk : k = key
    · have hkey : (key' == k) = false := by rw [hk]; exact hbeq
      simp only [List.filter_cons, hk, ne_eq, not_true_eq_false, decide_false, Bool.false_eq_true,
        if_false, List.lookup_cons, hbeq]
      exact ih
    · simp only [List.filter_cons, ne_eq, hk, not_false_eq_true, decide_true, if_true,
        List.lookup_cons]
      cases hkey : key' == k with
      | true => rfl
      | false => exact ih

end FileInfo

end FsspecDb
