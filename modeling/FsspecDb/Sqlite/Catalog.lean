import FsspecDb.Constraints.Sqlite
import FsspecDb.Fs.Walk

/-!
# The catalog of a SQLite connection (sqlite.rs)

What `sqlite_master` and the PRAGMAs say of the attached schemas, and the `Database` methods that
read it. Listings leave out the names `LIKE 'sqlite_%'`; `relation_info` does not.
-/

namespace FsspecDb.Sqlite.Catalog
open Text Sql Fs Constraints

/-! ### `LIKE` -/

/-- `name LIKE pattern`: `%` is any text, `_` any character, and letters have no case. -/
def like : Str → Str → Bool
  | [], s => s.isEmpty
  | p :: pattern, s =>
    if p = '%' then s.tails.any (like pattern)
    else
      match s with
      | [] => false
      | c :: s => (p = '_' || p.toLower = c.toLower) && like pattern s

/-- The names that no listing shows: `sqlite` in any case and at least one character behind it,
which need not be an underscore. -/
def Hidden (name : Str) : Prop := like "sqlite_%".toList name = true

instance (name : Str) : Decidable (Hidden name) := inferInstanceAs (Decidable (_ = true))

/-! ### The catalog -/

/- An index with the names of `PRAGMA index_info`, which has none for an expression. -/
structure SqliteIndex where
  name : Str
  unique : Bool
  columns : List (Option Str)

/-- A table or view. `count` is the answer of `SELECT COUNT(*)` for a table. -/
structure SqliteRelation where
  table : SqliteTable
  kind : RelationKind
  sql : Str
  count : Except DbError UInt64
  indexes : List SqliteIndex

def SqliteRelation.name (relation : SqliteRelation) : Str := relation.table.name

/-- An attached schema; `schema` has the tables of its relations with their foreign keys. -/
structure Attached where
  schema : SqliteSchema
  relations : List SqliteRelation
  tables : schema.tables = relations.map (·.table)

def Attached.name (attached : Attached) : Str := attached.schema.name

/-- A connection: the schemas of `PRAGMA database_list`, with names that differ in more than
their case. -/
structure Connection where
  schemas : List Attached
  schemas_nodup : (schemas.map fun attached => toAsciiLowercase attached.name).Nodup

/-! ### The code -/

section
variable (c : Connection) (unknownDatabase : Str → DbError) (nullName : DbError)

/- `{schema}.sqlite_master`; SQLite finds a schema in any case. -/
def Connection.attached (schema : Str) : Except DbError Attached := do
  let _ ← quoteIdentifier .Sqlite schema
  match c.schemas.find? fun attached =>
      toAsciiLowercase attached.name = toAsciiLowercase schema with
  | some attached => .ok attached
  | none => .error (unknownDatabase schema)

def relationRowCount (schema : Str) (relation : SqliteRelation) :
    Except DbError (Option UInt64) := do
  if relation.kind ≠ .Table then return none
  let _ ← quoteIdentifier .Sqlite schema
  let _ ← quoteIdentifier .Sqlite relation.name
  return some (← relation.count)

/- The row of `sqlite_master` with the name. -/
def Connection.relation (schema relation : Str) : Except DbError SqliteRelation := do
  let attached ← c.attached unknownDatabase schema
  match attached.relations.find? fun row => row.name = relation with
  | some row => .ok row
  | none => .error (.NotFound ("relation not found: ".toList ++ schema ++ '.' :: relation))

def relationInfoAsync (schema relation : Str) : Except DbError RelationInfo := do
  let row ← c.relation unknownDatabase schema relation
  let rowCount ← relationRowCount schema row
  return ⟨row.name, row.kind, rowCount, none, none⟩

def listSchemas : List SchemaInfo := c.schemas.map fun attached => ⟨attached.name, none, none⟩

/- `ORDER BY name`. -/
def visible (attached : Attached) : List SqliteRelation :=
  (attached.relations.filter fun relation => ¬ Hidden relation.name).mergeSort
    fun relation relation' => Utf8.encode relation.name ≤ Utf8.encode relation'.name

def listRelationsAsync (schema : Str) : Except DbError (List RelationInfo) := do
  let attached ← c.attached unknownDatabase schema
  return (visible attached).map fun relation => ⟨relation.name, relation.kind, none, none, none⟩

def listColumnsAsync (schema relation : Str) : Except DbError (List ColumnInfo) := do
  let _ ← relationInfoAsync c unknownDatabase schema relation
  let row ← c.relation unknownDatabase schema relation
  let _ ← quoteIdentifier .Sqlite relation
  return tableColumns row.table.tableInfo

def indexColumns (index : SqliteIndex) : Except DbError (List Str) := do
  let _ ← quoteIdentifier .Sqlite index.name
  index.columns.mapM fun column => column.elim (.error nullName) .ok

def indexInfo (index : SqliteIndex) : Except DbError IndexInfo := do
  let columns ← indexColumns nullName index
  return ⟨index.name, columns, index.unique, none⟩

def listIndexes (schema relation : Str) : Except DbError (List IndexInfo) := do
  let _ ← relationInfoAsync c unknownDatabase schema relation
  let row ← c.relation unknownDatabase schema relation
  let _ ← quoteIdentifier .Sqlite relation
  row.indexes.mapM (indexInfo nullName)

def listConstraints (schema relation : Str) : Except DbError (List ConstraintInfo) := do
  let _ ← relationInfoAsync c unknownDatabase schema relation
  let attached ← c.attached unknownDatabase schema
  { attached.schema with name := schema }.listConstraints relation

def viewDefinition (schema view : Str) : Except DbError Str := do
  let info ← relationInfoAsync c unknownDatabase schema view
  if info.kind ≠ .View then
    .error (.InvalidArgument ("relation is not a view: ".toList ++ schema ++ '.' :: view))
  else return (← c.relation unknownDatabase schema view).sql

end

/-- The database behind a `SqliteDatabase`. `insert` is about the rows, not the catalog. -/
def sqliteDatabase {Stream : Type} (unknownDatabase : Str → DbError) (nullName : DbError)
    (viewDependencies : Str → List Str)
    (insert : Connection → Str → Str → Stream → InsertMode →
      Except DbError UInt64 × Connection) : Database Connection Stream where
  dialect := .Sqlite
  listSchemas c := .ok (listSchemas c)
  listRelations c := listRelationsAsync c unknownDatabase
  listColumns c := listColumnsAsync c unknownDatabase
  listIndexes c := listIndexes c unknownDatabase nullName
  listConstraints c := listConstraints c unknownDatabase
  relationInfo c := relationInfoAsync c unknownDatabase
  viewDefinition c := viewDefinition c unknownDatabase
  insert := insert
  viewDependencies := viewDependencies

end FsspecDb.Sqlite.Catalog
