import FsspecDb.Bridge.Metadata
import FsspecDb.Bridge.PyDatabase
import FsspecDb.Ddl.Parsers
import FsspecDb.Lib.Keyed
import FsspecDb.Sql.DirectRead

/-!
# The direct Python adapter (python.py)

`PyDatabaseFileSystem` lists and describes an `AbstractDatabase` without the bridge, and
`RustDatabaseFs` does it through the bridge and the filesystem of fs.rs.
-/

namespace FsspecDb.Python
open Text Ddl Bridge Bridge.Backend

/-- What a method of the adapter raises. -/
inductive Raised where
  | parse (err : PyError)
  | database (err : PyException)
  | FileNotFoundError (path : Str)
  | NotADirectoryError (path : Str)
  | ValueError (msg : Str)
  | NotImplementedError (msg : Str)
  deriving Repr, DecidableEq

/-- The dictionary of an entry: the three keys that each has, and the others. -/
structure Entry where
  name : Str
  size : Nat
  fileType : FileType
  extra : List Bridge.Field
  deriving Repr, DecidableEq

def Entry.items (entry : Entry) : List Bridge.Field :=
  ("name".toList, some (.str entry.name)) :: ("size".toList, some (.int entry.size)) ::
    ("type".toList, some (.str (typeStr entry.fileType))) :: entry.extra

/-! ### Entries -/

def directory (name : Str) (extra : List Bridge.Field) : Entry := ⟨name, 0, .Directory, extra⟩

def file (name : Str) (size : Nat) (extra : List Bridge.Field) : Entry := ⟨name, size, .File, extra⟩

def schemaInfo (info : SchemaInfo) : Entry :=
  directory ('/' :: info.name) [("catalog".toList, info.catalog.map .str),
    ("comment".toList, info.comment.map .str)]

def relationInfo (schema : Str) (info : RelationInfo) : Entry :=
  directory ('/' :: schema ++ '/' :: info.name) [("kind".toList, some (.str info.kind.asStr)),
    ("row_count".toList, info.rowCount.map fun n => .int n.toNat),
    ("size_bytes".toList, info.sizeBytes.map fun n => .int n.toNat),
    ("comment".toList, info.comment.map .str)]

/- The dictionaries that `_facet_entries` builds. -/
def columnEntry (base : Str) (info : ColumnInfo) : Entry :=
  file (base ++ '/' :: info.name) 0 [("kind".toList, some (.str "column".toList)),
    ("data_type".toList, some (.str info.dataType)),
    ("nullable".toList, some (.bool info.nullable)),
    ("default".toList, info.default.map .str),
    ("ordinal".toList, some (.int info.ordinal.toNat)),
    ("primary_key".toList, some (.bool info.primaryKey)),
    ("comment".toList, info.comment.map .str)]

def indexEntry (base : Str) (info : IndexInfo) : Entry :=
  file (base ++ '/' :: info.name) 0 [("columns".toList, some (.list info.columns)),
    ("unique".toList, some (.bool info.unique)), ("method".toList, info.method.map .str)]

def constraintEntry (base : Str) (info : ConstraintInfo) : Entry :=
  file (base ++ '/' :: info.name) 0 [("kind".toList, some (.str info.kind.asStr)),
    ("columns".toList, some (.list info.columns)),
    ("references".toList, info.references.map .str), ("expr".toList, info.expr.map .str)]

def dependencyEntry (base schema name : Str) : Entry :=
  file (base ++ '/' :: name) 0
    [("target".toList, some (.str ('/' :: schema ++ '/' :: name)))]

/- `name.rsplit("/", 1)[-1]`. -/
def lastPart (name : Str) : Str := ((rsplitOnce name '/').map Prod.snd).getD name

/-! ### Listings and metadata -/

section
variable {σ Table : Type} (netlocError : Str → Option Str) (dependencies : Str → List Str)
  (db : AbstractDatabase σ Table) (s : σ)

def raised {α : Type} (result : Except PyException α) : Except Raised α :=
  result.mapError .database

def parse (path : Str) : Except Raised Path := (parsePath netlocError path).mapError .parse

/- The names of the path; `_parse_path` leaves none out of the kinds that have them. -/
def schemaOf (parsed : Path) : Str := parsed.schema.getD "None".toList

def relationOf (parsed : Path) : Str := parsed.relation.getD "None".toList

def formatOf (parsed : Path) : Str := parsed.format.getD "None".toList

def ensureSchema (schema : Str) : Except Raised SchemaInfo := do
  let schemas ← raised (db.listSchemas s)
  match schemas.find? fun info => info.name = schema with
  | some info => return info
  | none => .error (.FileNotFoundError schema)

/- `dependencies` is `_view_dependencies`. -/
def facetEntries (parsed : Path) : Except Raised (List Entry) := do
  let schema := schemaOf parsed
  let relation := relationOf parsed
  let base := '/' :: schema ++ '/' :: relation ++ '/' :: formatOf parsed
  if parsed.format = some "columns".toList then
    return (← raised (db.listColumns s schema relation)).map (columnEntry base)
  else if parsed.format = some "indexes".toList then
    return (← raised (db.listIndexes s schema relation)).map (indexEntry base)
  else if parsed.format = some "constraints".toList then
    return (← raised (db.listConstraints s schema relation)).map (constraintEntry base)
  else
    let definition ← raised (db.viewDefinition s schema relation)
    return (dependencies definition).map (dependencyEntry base schema)

def lsUncached (path : Str) : Except Raised (List Entry) := do
  let parsed ← parse netlocError path
  let schema := schemaOf parsed
  let relation := relationOf parsed
  match parsed.kind with
  | .root => return (← raised (db.listSchemas s)).map schemaInfo
  | .schema =>
    let _ ← ensureSchema db s schema
    return (← raised (db.listRelations s schema)).map (relationInfo schema)
  | .relation =>
    let info ← raised (db.relationInfo s schema relation)
    let base := '/' :: schema ++ '/' :: relation
    let entries := ["columns", "indexes", "constraints"].map fun facet =>
      directory (base ++ '/' :: facet.toList) []
    if info.kind = .View then
      return entries ++ [directory (base ++ "/depends_on".toList) [],
        file (base ++ "/definition.sql".toList) 0 []]
    else return entries
  | .facet => facetEntries dependencies db s parsed
  | .data | .definition => .error (.NotADirectoryError path)

def infoUncached (path : Str) : Except Raised Entry := do
  let parsed ← parse netlocError path
  let schema := schemaOf parsed
  let relation := relationOf parsed
  let base := '/' :: schema ++ '/' :: relation
  match parsed.kind with
  | .root => return directory ['/'] []
  | .schema => return schemaInfo (← ensureSchema db s schema)
  | .relation => return relationInfo schema (← raised (db.relationInfo s schema relation))
  | .facet =>
    match parsed.item with
    | none =>
      let _ ← raised (db.relationInfo s schema relation)
      return directory (base ++ '/' :: formatOf parsed) []
    | some item =>
      let entries ← facetEntries dependencies db s parsed
      -- the dictionary has the last entry of a name
      match entries.reverse.find? fun entry => lastPart entry.name = item with
      | some entry => return entry
      | none => .error (.FileNotFoundError path)
  | .definition =>
    let definition ← raised (db.viewDefinition s schema relation)
    return file (base ++ "/definition.sql".toList) (Utf8.encode definition).length []
  | .data =>
    let info ← raised (db.relationInfo s schema relation)
    return file (base ++ '.' :: formatOf parsed) ((info.sizeBytes.map UInt64.toNat).getD 0)
      [("kind".toList, some (.str info.kind.asStr)),
        ("row_count".toList, info.rowCount.map fun n => .int n.toNat),
        ("size_known".toList, some (.bool info.sizeBytes.isSome))]

/- The checks of `_write`, and what it inserts into. -/
def writeTarget (path : Str) : Except Raised (Str × Str × Str) := do
  let parsed ← parse netlocError path
  if parsed.kind ≠ .data ∨ parsed.format = some "sql".toList then
    .error (.ValueError ("database writes require a relation data path: ".toList ++ path))
  else
    let info ← raised (db.relationInfo s (schemaOf parsed) (relationOf parsed))
    if info.kind ≠ .Table then
      .error (.NotImplementedError "database writes require a table path".toList)
    else return (schemaOf parsed, relationOf parsed, formatOf parsed)

/- On the path of a facet or of an item in it, `relation_info` in front of a call. -/
def relationFirst {α : Type} (path : Str) (call : Except Raised α) : Except Raised α := do
  let parsed ← parse netlocError path
  if parsed.kind = .facet then
    let _ ← raised (db.relationInfo s (schemaOf parsed) (relationOf parsed))
    call
  else call

end

/-! ### Through the bridge -/

section
variable {σ Stream : Type} (db : Fs.Database σ Stream) (s : σ) (path : Str)

/- `ls`, `info` and the checks of a write, as Python gets them from `RustDatabaseFs`. -/
def bridgeLs : Except Fs.PyErr (List Dict) :=
  ((Fs.lsDb db s path).map (List.map fileInfoToDict)).mapError
    (Fs.fsErrorToPyerr ∘ Fs.FsError.ofDbError)

def bridgeInfo : Except Fs.PyErr Dict :=
  ((Fs.infoDb db s path).map fileInfoToDict).mapError (Fs.fsErrorToPyerr ∘ Fs.FsError.ofDbError)

def bridgeTarget : Except Fs.PyErr (Str × Str × DataFormat) :=
  (Fs.writeTarget db s path).mapError Fs.dbErrorToPyerr

end

/-- The same exception: one that the database raised as the bridge hands it on, with its text,
and else one of the same class. -/
def SameError (err : Fs.PyErr) : Raised → Prop
  | .database raised => err = ⟨raised.bridged, raised.text⟩
  | .parse raised => (∃ msg, raised = .ValueError msg) ∧ err.cls = .ValueError
  | .FileNotFoundError _ => err.cls = .FileNotFoundError
  | .NotADirectoryError _ => err.cls = .NotADirectoryError
  -- neither a listing nor the metadata is refused so
  | .ValueError _ | .NotImplementedError _ => False

/-- The same exception for a write, except where an adapter refuses the path itself: what is no
data file is a `ValueError` for both, a `.sql` file only for the direct adapter, and what is no
table is a `NotImplementedError` for it; both are an `OSError` for the bridge. -/
def SameRefusal (kind : Option PathKind) (err : Fs.PyErr) : Raised → Prop
  | .ValueError _ => err.cls = if kind = some .data then .OSError else .ValueError
  | .NotImplementedError _ => kind = some .data ∧ err.cls = .OSError
  | raised => SameError err raised

/-- Every item of the direct adapter's dictionary is in the bridge's. -/
def Shows (dict : Dict) (entry : Entry) : Prop := Holds dict entry.items

/-- All but the sizes of a data file: the bridge knows none before it is read. -/
def ShowsUnsized (dict : Dict) (entry : Entry) : Prop :=
  Holds dict (entry.items.filter fun field =>
    field.1 ≠ "size".toList ∧ field.1 ≠ "row_count".toList ∧ field.1 ≠ "size_known".toList)

end FsspecDb.Python
