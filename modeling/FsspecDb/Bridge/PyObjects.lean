import FsspecDb.Fs.Writes
import FsspecDb.Lib.Checked

/-!
# Metadata as Python objects (database.rs and types.rs of the Python module)

The bridge reads the fields of what a Python database returns: the keys of a dictionary, or the
attributes of an object, or the dictionary of its `to_dict`.
-/

namespace FsspecDb.Bridge.Backend
open Fs

/-- An exception that Python code raises: the classes that it is an instance of, as far as they
are told apart here, and its text with the name of its class in front. -/
structure PyException where
  classes : List PyErrClass
  text : Str
  deriving Repr, DecidableEq

/-- A Python object by its type, or by its attributes and the result of its `to_dict`. -/
inductive PyObject where
  | none
  | bool (value : Bool)
  | int (value : Int)
  | str (value : Str)
  | list (items : List PyObject)
  | dict (items : List (Str × PyObject))
  | object (attributes : List (Str × Except PyException PyObject))
      (toDict : Option (Except PyException PyObject))

/-! ### Exceptions -/

def pyerrToDbError (err : PyException) : DbError :=
  if .FileNotFoundError ∈ err.classes then .NotFound err.text
  else if .PermissionError ∈ err.classes then .PermissionDenied err.text
  else if .FileExistsError ∈ err.classes then .AlreadyExists err.text
  else if .NotADirectoryError ∈ err.classes then .NotADirectory err.text
  else if .IsADirectoryError ∈ err.classes then .IsADirectory err.text
  else if .ValueError ∈ err.classes then .InvalidArgument err.text
  else .Other err.text

def mapPy {α : Type} (result : Except PyException α) : Except DbError α :=
  result.mapError pyerrToDbError

/-- The class under which the exception comes back to Python. -/
def PyException.bridged (err : PyException) : PyErrClass :=
  ([.FileNotFoundError, .PermissionError, .FileExistsError, .NotADirectoryError,
    .IsADirectoryError, .ValueError].find? fun cls => cls ∈ err.classes).getD .OSError

theorem dbErrorToPyerr_pyerrToDbError (err : PyException) :
    dbErrorToPyerr (pyerrToDbError err) = ⟨err.bridged, err.text⟩ := by
  unfold pyerrToDbError PyException.bridged
  by_cases hfound : .FileNotFoundError ∈ err.classes
  · simp [hfound, dbErrorToPyerr]
  by_cases hpermission : .PermissionError ∈ err.classes
  · simp [hfound, hpermission, dbErrorToPyerr]
  by_cases hexists : .FileExistsError ∈ err.classes
  · simp [hfound, hpermission, hexists, dbErrorToPyerr]
  by_cases hnot : .NotADirectoryError ∈ err.classes
  · simp [hfound, hpermission, hexists, hnot, dbErrorToPyerr]
  by_cases his : .IsADirectoryError ∈ err.classes
  · simp [hfound, hpermission, hexists, hnot, his, dbErrorToPyerr]
  by_cases hvalue : .ValueError ∈ err.classes
  · simp [hfound, hpermission, hexists, hnot, his, hvalue, dbErrorToPyerr]
  · simp [hfound, hpermission, hexists, hnot, his, hvalue, dbErrorToPyerr]

def valueError (msg : Str) : PyException := ⟨[.ValueError], "ValueError: ".toList ++ msg⟩

/-! ### Reading a field -/

/- `castError` is the exception of `extract` for an object of another type or range. -/
section
variable (castError : Str → PyObject → PyException)

def optionalField (obj : PyObject) (name : Str) : Except PyException (Option PyObject) :=
  match obj with
  | .dict items => .ok (items.lookup name)
  | .object attributes toDict =>
    match attributes.lookup name, toDict with
    | some (.ok value), _ => .ok (some value)
    | some (.error err), _ => .error err
    | none, some (.ok (.dict items)) => .ok (items.lookup name)
    | none, some (.ok _) => .ok none
    | none, some (.error err) => .error err
    | none, none => .ok none
  | _ => .ok none

def requiredField (obj : PyObject) (name : Str) : Except PyException PyObject := do
  match ← optionalField obj name with
  | some value => return value
  | none => .error (valueError ("missing field: ".toList ++ name))

def extractString : PyObject → Except PyException Str
  | .str value => .ok value
  | obj => .error (castError "str".toList obj)

def extractBool : PyObject → Except PyException Bool
  | .bool value => .ok value
  | obj => .error (castError "bool".toList obj)

/- `extract` of an unsigned integer below a bound; a `bool` is an integer in Python. -/
def extractNat (bound : Nat) (obj : PyObject) : Except PyException Nat :=
  match obj with
  | .int value =>
    if 0 ≤ value ∧ value < bound then .ok value.toNat else .error (castError "int".toList obj)
  | .bool value => .ok value.toNat
  | obj => .error (castError "int".toList obj)

def extractU64 (obj : PyObject) : Except PyException UInt64 :=
  (extractNat castError (2 ^ 64) obj).map UInt64.ofNat

def extractU32 (obj : PyObject) : Except PyException UInt32 :=
  (extractNat castError (2 ^ 32) obj).map UInt32.ofNat

def extractStringList : PyObject → Except PyException (List Str)
  | .list items => items.mapM (extractString castError)
  | obj => .error (castError "Vec".toList obj)

def requiredString (obj : PyObject) (name : Str) : Except PyException Str := do
  extractString castError (← requiredField obj name)

/- `optional_string`, `optional_bool` and `optional_u64`. -/
def optionalValue {α : Type} (extract : PyObject → Except PyException α) (obj : PyObject)
    (name : Str) : Except PyException (Option α) := do
  match ← optionalField obj name with
  | some .none => return none
  | some value => return some (← extract value)
  | none => return none

def optionalString (obj : PyObject) (name : Str) : Except PyException (Option Str) :=
  optionalValue (extractString castError) obj name

def optionalBool (obj : PyObject) (name : Str) : Except PyException (Option Bool) :=
  optionalValue (extractBool castError) obj name

def optionalU64 (obj : PyObject) (name : Str) : Except PyException (Option UInt64) :=
  optionalValue (extractU64 castError) obj name

def requiredBool (obj : PyObject) (name : Str) : Except PyException Bool := do
  extractBool castError (← requiredField obj name)

def requiredU32 (obj : PyObject) (name : Str) : Except PyException UInt32 := do
  extractU32 castError (← requiredField obj name)

def requiredStringList (obj : PyObject) (name : Str) : Except PyException (List Str) := do
  extractStringList castError (← requiredField obj name)

/-! ### Reading metadata -/

def relationKindFromStr (kind : Str) : Except PyException RelationKind :=
  if kind = "table".toList then .ok .Table
  else if kind = "view".toList then .ok .View
  else .error (valueError ("unknown relation kind: ".toList ++ kind))

def constraintKindFromStr (kind : Str) : Except PyException ConstraintKind :=
  if kind = "pk".toList then .ok .PrimaryKey
  else if kind = "fk".toList then .ok .ForeignKey
  else if kind = "unique".toList then .ok .Unique
  else if kind = "check".toList then .ok .Check
  else .error (valueError ("unknown constraint kind: ".toList ++ kind))

def schemaFromPy (obj : PyObject) : Except PyException SchemaInfo := do
  let name ← requiredString castError obj "name".toList
  let catalog ← optionalString castError obj "catalog".toList
  let comment ← optionalString castError obj "comment".toList
  return ⟨name, catalog, comment⟩

def relationFromPy (obj : PyObject) : Except PyException RelationInfo := do
  let name ← requiredString castError obj "name".toList
  let kind ← relationKindFromStr (← requiredString castError obj "kind".toList)
  let rowCount ← optionalU64 castError obj "row_count".toList
  let sizeBytes ← optionalU64 castError obj "size_bytes".toList
  let comment ← optionalString castError obj "comment".toList
  return ⟨name, kind, rowCount, sizeBytes, comment⟩

def columnFromPy (obj : PyObject) : Except PyException ColumnInfo := do
  let name ← requiredString castError obj "name".toList
  let dataType ← requiredString castError obj "data_type".toList
  let nullable ← requiredBool castError obj "nullable".toList
  let default ← optionalString castError obj "default".toList
  let ordinal ← requiredU32 castError obj "ordinal".toList
  let primaryKey ← optionalBool castError obj "primary_key".toList
  let comment ← optionalString castError obj "comment".toList
  return ⟨name, dataType, nullable, default, ordinal, primaryKey.getD false, comment⟩

def indexFromPy (obj : PyObject) : Except PyException IndexInfo := do
  let name ← requiredString castError obj "name".toList
  let columns ← requiredStringList castError obj "columns".toList
  let unique ← requiredBool castError obj "unique".toList
  let method ← optionalString castError obj "method".toList
  return ⟨name, columns, unique, method⟩

def constraintFromPy (obj : PyObject) : Except PyException ConstraintInfo := do
  let name ← requiredString castError obj "name".toList
  let kind ← constraintKindFromStr (← requiredString castError obj "kind".toList)
  let columns ← requiredStringList castError obj "columns".toList
  let references ← optionalString castError obj "references".toList
  let expr ← optionalString castError obj "expr".toList
  return ⟨name, kind, columns, references, expr⟩

/- What `try_iter` goes through. -/
def tryIter (obj : PyObject) : Except PyException (List PyObject) :=
  match obj with
  | .list items => .ok items
  | .dict items => .ok (items.map fun item => .str item.1)
  | .str value => .ok (value.map fun c => .str [c])
  | obj => .error (castError "Iterator".toList obj)

def collectPyVec {α : Type} (convert : PyObject → Except PyException α) (obj : PyObject) :
    Except PyException (List α) := do
  (← tryIter castError obj).mapM convert

end

/-! ### Metadata as Python objects -/

def optionalStr (value : Option Str) : PyObject := value.elim .none .str

def optionalInt (value : Option UInt64) : PyObject := value.elim .none fun n => .int n.toNat

/- `schema_to_dict` and so on; the getters of the classes have the same names and values. -/
def schemaToDict (schema : SchemaInfo) : List (Str × PyObject) :=
  [("name".toList, .str schema.name), ("catalog".toList, optionalStr schema.catalog),
    ("comment".toList, optionalStr schema.comment)]

def relationToDict (relation : RelationInfo) : List (Str × PyObject) :=
  [("name".toList, .str relation.name), ("kind".toList, .str relation.kind.asStr),
    ("row_count".toList, optionalInt relation.rowCount),
    ("size_bytes".toList, optionalInt relation.sizeBytes),
    ("comment".toList, optionalStr relation.comment)]

def columnToDict (column : ColumnInfo) : List (Str × PyObject) :=
  [("name".toList, .str column.name), ("data_type".toList, .str column.dataType),
    ("nullable".toList, .bool column.nullable), ("default".toList, optionalStr column.default),
    ("ordinal".toList, .int column.ordinal.toNat),
    ("primary_key".toList, .bool column.primaryKey),
    ("comment".toList, optionalStr column.comment)]

def indexToDict (index : IndexInfo) : List (Str × PyObject) :=
  [("name".toList, .str index.name), ("columns".toList, .list (index.columns.map .str)),
    ("unique".toList, .bool index.unique), ("method".toList, optionalStr index.method)]

def constraintToDict (constraint : ConstraintInfo) : List (Str × PyObject) :=
  [("name".toList, .str constraint.name), ("kind".toList, .str constraint.kind.asStr),
    ("columns".toList, .list (constraint.columns.map .str)),
    ("references".toList, optionalStr constraint.references),
    ("expr".toList, optionalStr constraint.expr)]

/-- The objects that carry a dictionary: itself, an `*Info` object with a getter for each key,
and an object that has only `to_dict`. -/
inductive Form where
  | dict
  | info
  | toDict
  deriving Repr, DecidableEq

def Form.object (form : Form) (items : List (Str × PyObject)) : PyObject :=
  match form with
  | .dict => .dict items
  | .info => .object (items.map fun item => (item.1, .ok item.2)) (some (.ok (.dict items)))
  | .toDict => .object [] (some (.ok (.dict items)))

theorem lookup_map_ok (items : List (Str × PyObject)) (name : Str) :
    (items.map fun item => (item.1, (Except.ok item.2 : Except PyException PyObject))).lookup name =
      (items.lookup name).map .ok := by
  induction items with
  | nil => rfl
  | cons item items ih =>
    rw [List.map_cons, List.lookup_cons, List.lookup_cons, ih]
    split <;> rfl

theorem optionalField_object (form : Form) (items : List (Str × PyObject)) (name : Str) :
    optionalField (form.object items) name = .ok (items.lookup name) := by
  cases form with
  | dict => rfl
  | toDict => rfl
  | info =>
    simp only [Form.object, optionalField, lookup_map_ok]
    cases hlookup : items.lookup name with
    | none => exact congrArg Except.ok hlookup
    | some value => rfl

/-! ### Reading what was written -/

section
variable (castError : Str → PyObject → PyException) (form : Form) (items : List (Str × PyObject))
  (name : Str)

theorem requiredField_object (value : PyObject) (h : items.lookup name = some value) :
    requiredField (form.object items) name = .ok value := by
  rw [requiredField, optionalField_object, h]
  rfl

theorem requiredString_object (value : Str) (h : items.lookup name = some (.str value)) :
    requiredString castError (form.object items) name = .ok value := by
  rw [requiredString, requiredField_object form items name _ h]
  rfl

theorem requiredBool_object (value : Bool) (h : items.lookup name = some (.bool value)) :
    requiredBool castError (form.object items) name = .ok value := by
  rw [requiredBool, requiredField_object form items name _ h]
  rfl

theorem extractNat_int (bound n : Nat) (h : n < bound) :
    extractNat castError bound (.int n) = .ok n := by
  have hbounds : (0 : Int) ≤ n ∧ (n : Int) < bound := by omega
  rw [extractNat, if_pos hbounds, Int.toNat_natCast]

theorem extractU64_int (n : UInt64) : extractU64 castError (.int n.toNat) = .ok n := by
  rw [extractU64, extractNat_int castError _ _ n.toNat_lt, Except.map, UInt64.ofNat_toNat]

theorem extractU32_int (n : UInt32) : extractU32 castError (.int n.toNat) = .ok n := by
  rw [extractU32, extractNat_int castError _ _ n.toNat_lt, Except.map, UInt32.ofNat_toNat]

theorem requiredU32_object (n : UInt32) (h : items.lookup name = some (.int n.toNat)) :
    requiredU32 castError (form.object items) name = .ok n :=
  Checked.bind_eq_ok_iff.mpr ⟨_, requiredField_object form items name _ h, extractU32_int _ n⟩

theorem requiredStringList_object (values : List Str)
    (h : items.lookup name = some (.list (values.map .str))) :
    requiredStringList castError (form.object items) name = .ok values := by
  rw [requiredStringList, requiredField_object form items name _ h]
  apply Checked.mapM_eq_ok_iff.mpr
  rw [List.forall₂_map_left_iff]
  exact List.forall₂_same.mpr fun _ _ => rfl

theorem optionalString_object (value : Option Str)
    (h : items.lookup name = some (optionalStr value)) :
    optionalString castError (form.object items) name = .ok value := by
  rw [optionalString, optionalValue, optionalField_object, h]
  cases value <;> rfl

theorem optionalU64_object (value : Option UInt64)
    (h : items.lookup name = some (optionalInt value)) :
    optionalU64 castError (form.object items) name = .ok value := by
  refine Checked.bind_eq_ok_iff.mpr ⟨_, optionalField_object form items name, ?_⟩
  rw [h]
  cases value with
  | none => rfl
  | some n => exact Checked.bind_eq_ok_iff.mpr ⟨n, extractU64_int castError n, rfl⟩

theorem optionalBool_object (value : Bool) (h : items.lookup name = some (.bool value)) :
    optionalBool castError (form.object items) name = .ok (some value) := by
  rw [optionalBool, optionalValue, optionalField_object, h]
  rfl

theorem relationKindFromStr_asStr (kind : RelationKind) :
    relationKindFromStr kind.asStr = .ok kind := by
  cases kind <;> rfl

theorem constraintKindFromStr_asStr (kind : ConstraintKind) :
    constraintKindFromStr kind.asStr = .ok kind := by
  cases kind <;> rfl

/- Metadata written as a dictionary and read from any object that carries it. -/
theorem schemaFromPy_object (schema : SchemaInfo) :
    schemaFromPy castError (form.object (schemaToDict schema)) = .ok schema := by
  rw [schemaFromPy, requiredString_object castError form _ _ schema.name rfl,
    optionalString_object castError form _ _ schema.catalog rfl,
    optionalString_object castError form _ _ schema.comment rfl]
  rfl

theorem relationFromPy_object (relation : RelationInfo) :
    relationFromPy castError (form.object (relationToDict relation)) = .ok relation := by
  rw [relationFromPy, requiredString_object castError form _ _ relation.name rfl,
    requiredString_object castError form _ _ relation.kind.asStr rfl,
    optionalU64_object castError form _ _ relation.rowCount rfl,
    optionalU64_object castError form _ _ relation.sizeBytes rfl,
    optionalString_object castError form _ _ relation.comment rfl]
  change (relationKindFromStr relation.kind.asStr >>= fun kind => _) = _
  rw [relationKindFromStr_asStr]
  rfl

theorem columnFromPy_object (column : ColumnInfo) :
    columnFromPy castError (form.object (columnToDict column)) = .ok column := by
  rw [columnFromPy, requiredString_object castError form _ _ column.name rfl,
    requiredString_object castError form _ _ column.dataType rfl,
    requiredBool_object castError form _ _ column.nullable rfl,
    optionalString_object castError form _ _ column.default rfl,
    requiredU32_object castError form _ _ column.ordinal rfl,
    optionalBool_object castError form _ _ column.primaryKey rfl,
    optionalString_object castError form _ _ column.comment rfl]
  rfl

theorem indexFromPy_object (index : IndexInfo) :
    indexFromPy castError (form.object (indexToDict index)) = .ok index := by
  rw [indexFromPy, requiredString_object castError form _ _ index.name rfl,
    requiredStringList_object castError form _ _ index.columns rfl,
    requiredBool_object castError form _ _ index.unique rfl,
    optionalString_object castError form _ _ index.method rfl]
  rfl

theorem constraintFromPy_object (constraint : ConstraintInfo) :
    constraintFromPy castError (form.object (constraintToDict constraint)) = .ok constraint := by
  rw [constraintFromPy, requiredString_object castError form _ _ constraint.name rfl,
    requiredString_object castError form _ _ constraint.kind.asStr rfl,
    requiredStringList_object castError form _ _ constraint.columns rfl,
    optionalString_object castError form _ _ constraint.references rfl,
    optionalString_object castError form _ _ constraint.expr rfl]
  change (constraintKindFromStr constraint.kind.asStr >>= fun kind => _) = _
  rw [constraintKindFromStr_asStr]
  rfl

end

end FsspecDb.Bridge.Backend
