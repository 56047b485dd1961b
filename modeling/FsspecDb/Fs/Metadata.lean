import FsspecDb.Path

/-!
# Listings and metadata from a database (fs.rs, `ls_db` and `info_db`)

The trait `Database` as far as the filesystem uses it. Its answers are functions
of the contents, so that `lsDb` and `infoDb` are the uncached answers.
-/

namespace FsspecDb.Fs
open Text

inductive InsertMode where
  | Append
  | Truncate
  deriving Repr, DecidableEq

/-- `trait Database` over contents `σ`. An insert gives the new contents also where
it fails; how a failed insert leaves them is the backend's matter. -/
structure Database (σ Stream : Type) where
  dialect : Dialect
  listSchemas : σ → Except DbError (List SchemaInfo)
  listRelations : σ → Str → Except DbError (List RelationInfo)
  listColumns : σ → Str → Str → Except DbError (List ColumnInfo)
  listIndexes : σ → Str → Str → Except DbError (List IndexInfo)
  listConstraints : σ → Str → Str → Except DbError (List ConstraintInfo)
  relationInfo : σ → Str → Str → Except DbError RelationInfo
  viewDefinition : σ → Str → Str → Except DbError Str
  insert : σ → Str → Str → Stream → InsertMode → Except DbError UInt64 × σ
  /- `sql::view_dependencies`, the names a view's text mentions. -/
  viewDependencies : Str → List Str

variable {σ Stream : Type}

def boolStr (b : Bool) : Str := if b then "true".toList else "false".toList

def natStr (n : Nat) : Str := (toString n).toList

/-! ### One entry -/

def schemaInfo (schema : SchemaInfo) : FileInfo :=
  ((FileInfo.directory (DbPath.schemaPath schema.name)).insert "kind".toList "schema".toList)
    |>.insertSome "catalog".toList schema.catalog
    |>.insertSome "comment".toList schema.comment

def relationInfo (schema : Str) (relation : RelationInfo) : FileInfo :=
  ((FileInfo.directory (DbPath.relationPath schema relation.name)).insert
    "kind".toList relation.kind.asStr)
    |>.insertSome "row_count".toList (relation.rowCount.map fun n => natStr n.toNat)
    |>.insertSome "size_bytes".toList (relation.sizeBytes.map fun n => natStr n.toNat)
    |>.insertSome "comment".toList relation.comment

def facetDir (schema relation : Str) (facet : DbFacet) : FileInfo :=
  (FileInfo.directory (DbPath.facetPath schema relation facet)).insert "kind".toList facet.asStr

def columnInfo (schema relation : Str) (column : ColumnInfo) : FileInfo :=
  ((FileInfo.file (DbPath.facetItemPath schema relation .Columns column.name) 0).insert
    "kind".toList "column".toList)
    |>.insert "data_type".toList column.dataType
    |>.insert "nullable".toList (boolStr column.nullable)
    |>.insert "ordinal".toList (natStr column.ordinal.toNat)
    |>.insert "primary_key".toList (boolStr column.primaryKey)
    |>.insertSome "default".toList column.default
    |>.insertSome "comment".toList column.comment

def indexInfo (schema relation : Str) (index : IndexInfo) : FileInfo :=
  ((FileInfo.file (DbPath.facetItemPath schema relation .Indexes index.name) 0).insert
    "kind".toList "index".toList)
    |>.insert "columns".toList (join [','] index.columns)
    |>.insert "unique".toList (boolStr index.unique)
    |>.insertSome "method".toList index.method

def constraintInfo (schema relation : Str) (constraint : ConstraintInfo) : FileInfo :=
  ((FileInfo.file (DbPath.facetItemPath schema relation .Constraints constraint.name) 0).insert
    "kind".toList constraint.kind.asStr)
    |>.insert "columns".toList (join [','] constraint.columns)
    |>.insertSome "references".toList constraint.references
    |>.insertSome "expr".toList constraint.expr

def viewDefinitionFile (schema relation : Str) (size : Nat) : FileInfo :=
  ((FileInfo.file (DbPath.viewDefinitionPath schema relation) size).insert
    "kind".toList "view_definition".toList).insert "format".toList "sql".toList

def dependsOnEntry (schema relation dependency : Str) : FileInfo :=
  let target := (rsplitOnce dependency '.').getD (schema, dependency)
  ((FileInfo.file (DbPath.facetItemPath schema relation .DependsOn target.2) 0).insert
    "kind".toList "depends_on".toList).insert
    "target".toList (DbPath.relationPath target.1 target.2)

/-! ### Listings and metadata of a path -/

def requiredSchema (path : DbPath) : Except DbError Str :=
  match path.schema with
  | some schema => .ok schema
  | none => .error (.InvalidArgument "schema path is missing schema".toList)

def requiredRelation (path : DbPath) : Except DbError (Str × Str) := do
  let schema ← requiredSchema path
  match path.relation with
  | some relation => .ok (schema, relation)
  | none => .error (.InvalidArgument "relation path is missing relation".toList)

def ensureSchema (db : Database σ Stream) (s : σ) (name : Str) : Except DbError SchemaInfo := do
  let schemas ← db.listSchemas s
  match schemas.find? fun schema => schema.name = name with
  | some schema => .ok schema
  | none => .error (.NotFound ("schema not found: ".toList ++ name))

def facetEntries (db : Database σ Stream) (s : σ) (schema relation : Str) (facet : DbFacet) :
    Except DbError (List FileInfo) := do
  let _ ← db.relationInfo s schema relation
  match facet with
  | .Columns => return (← db.listColumns s schema relation).map (columnInfo schema relation)
  | .Indexes => return (← db.listIndexes s schema relation).map (indexInfo schema relation)
  | .Constraints =>
    return (← db.listConstraints s schema relation).map (constraintInfo schema relation)
  | .DependsOn =>
    let info ← db.relationInfo s schema relation
    if info.kind ≠ .View then return []
    let definition ← db.viewDefinition s schema relation
    -- a reference of the view to itself is left out
    let dependencies := (db.viewDependencies definition).filter fun dependency =>
      ((rsplitOnce dependency '.').map Prod.snd).getD dependency ≠ relation
    return dependencies.map (dependsOnEntry schema relation)

def facetItemInfo (db : Database σ Stream) (s : σ) (schema relation : Str) (facet : DbFacet)
    (item : Str) : Except DbError FileInfo := do
  let entries ← facetEntries db s schema relation facet
  match entries.find? fun entry => (entry.name.splitOn '/').getLast? = some item with
  | some entry => .ok entry
  | none => .error (.NotFound ("database metadata item not found: ".toList ++ item))

def lsDb (db : Database σ Stream) (s : σ) (path : Str) : Except DbError (List FileInfo) := do
  let parsed ← DbPath.parse path
  match parsed.kind with
  | .Root => return (← db.listSchemas s).map schemaInfo
  | .Schema =>
    let schema ← requiredSchema parsed
    let _ ← ensureSchema db s schema
    return (← db.listRelations s schema).map (relationInfo schema)
  | .Relation =>
    let (schema, relation) ← requiredRelation parsed
    let info ← db.relationInfo s schema relation
    let entries := [facetDir schema relation .Columns, facetDir schema relation .Indexes,
      facetDir schema relation .Constraints]
    if info.kind = .View then
      return entries ++ [facetDir schema relation .DependsOn, viewDefinitionFile schema relation 0]
    else return entries
  | .Facet facet none =>
    let (schema, relation) ← requiredRelation parsed
    facetEntries db s schema relation facet
  | .Facet _ (some _) | .RelationData _ | .ViewDefinition =>
    .error (.NotADirectory ("not a directory: ".toList ++ path))

def infoDb (db : Database σ Stream) (s : σ) (path : Str) : Except DbError FileInfo := do
  let parsed ← DbPath.parse path
  match parsed.kind with
  | .Root => return FileInfo.directory ['/']
  | .Schema =>
    let schema ← requiredSchema parsed
    return schemaInfo (← ensureSchema db s schema)
  | .Relation =>
    let (schema, relation) ← requiredRelation parsed
    return relationInfo schema (← db.relationInfo s schema relation)
  | .Facet facet none =>
    let (schema, relation) ← requiredRelation parsed
    let _ ← db.relationInfo s schema relation
    return facetDir schema relation facet
  | .Facet facet (some item) =>
    let (schema, relation) ← requiredRelation parsed
    facetItemInfo db s schema relation facet item
  | .RelationData format =>
    let (schema, relation) ← requiredRelation parsed
    let info ← db.relationInfo s schema relation
    return relationDataFile db.dialect schema relation info.kind format
  | .ViewDefinition =>
    let (schema, relation) ← requiredRelation parsed
    let definition ← db.viewDefinition s schema relation
    return viewDefinitionFile schema relation (Utf8.encode definition).length

end FsspecDb.Fs
