import FsspecDb.Text.Split
import FsspecDb.Types
import FsspecDb.Utf8

/-!
# Database paths (path.rs)

`DbPath::parse` strips a protocol, splits off the query, normalizes the rest and
classifies it by its components.
-/

namespace FsspecDb
open Text

inductive DataFormat where
  | Parquet
  | Arrow
  | Csv
  | Jsonl
  | Sql
  deriving Repr, DecidableEq

namespace DataFormat

def extension : DataFormat → Str
  | .Parquet => "parquet".toList
  | .Arrow => "arrow".toList
  | .Csv => "csv".toList
  | .Jsonl => "jsonl".toList
  | .Sql => "sql".toList

def parse (value : Str) : Option DataFormat :=
  if value = "parquet".toList then some .Parquet
  else if value = "arrow".toList then some .Arrow
  else if value = "csv".toList then some .Csv
  else if value = "jsonl".toList then some .Jsonl
  else if value = "sql".toList then some .Sql
  else none

theorem parse_extension (format : DataFormat) : parse format.extension = some format := by
  cases format <;> decide

theorem parse_eq_some (value : Str) (format : DataFormat) :
    parse value = some format ↔ value = format.extension := by
  constructor
  · intro h
    unfold parse at h
    split_ifs at h with h1 h2 h3 h4 h5
    all_goals
      obtain rfl := Option.some.inj h
      assumption
  · intro heq
    subst heq
    exact parse_extension format

end DataFormat

inductive DbFacet where
  | Columns
  | Indexes
  | Constraints
  | DependsOn
  deriving Repr, DecidableEq

namespace DbFacet

def asStr : DbFacet → Str
  | .Columns => "columns".toList
  | .Indexes => "indexes".toList
  | .Constraints => "constraints".toList
  | .DependsOn => "depends_on".toList

def parse (value : Str) : Option DbFacet :=
  if value = "columns".toList then some .Columns
  else if value = "indexes".toList then some .Indexes
  else if value = "constraints".toList then some .Constraints
  else if value = "depends_on".toList then some .DependsOn
  else none

theorem parse_eq_some (value : Str) (facet : DbFacet) :
    parse value = some facet ↔ value = facet.asStr := by
  constructor
  · intro h
    unfold parse at h
    split_ifs at h with h1 h2 h3 h4
    all_goals
      obtain rfl := Option.some.inj h
      assumption
  · intro heq
    subst heq
    cases facet <;> decide

end DbFacet

inductive DbPathKind where
  | Root
  | Schema
  | Relation
  | Facet (facet : DbFacet) (item : Option Str)
  | RelationData (format : DataFormat)
  | ViewDefinition
  deriving Repr, DecidableEq

structure DbPath where
  schema : Option Str
  relation : Option Str
  kind : DbPathKind
  query : List (Str × Str)
  deriving Repr, DecidableEq

def stripProtocol (path : Str) : Str :=
  match splitOnce path "://".toList with
  | some (_, rest) => rest
  | none => path

def hexDigit (b : Byte) : Option Nat :=
  if 0x30 ≤ b ∧ b ≤ 0x39 then some (b.toNat - 0x30)
  else if 0x61 ≤ b ∧ b ≤ 0x66 then some (b.toNat - 0x61 + 10)
  else if 0x41 ≤ b ∧ b ≤ 0x46 then some (b.toNat - 0x41 + 10)
  else none

/- The loop of `percent_decode` over the bytes. -/
def percentDecodeBytes : List Byte → List Byte
  | [] => []
  | 0x2B :: rest => 0x20 :: percentDecodeBytes rest
  | 0x25 :: b₁ :: b₂ :: rest =>
    match hexDigit b₁, hexDigit b₂ with
    | some hi, some lo => UInt8.ofNat (hi * 16 + lo) :: percentDecodeBytes rest
    | _, _ => 0x25 :: percentDecodeBytes (b₁ :: b₂ :: rest)
  | b :: rest => b :: percentDecodeBytes rest

def percentDecode (input : Str) : Str :=
  Utf8.fromUtf8Lossy (percentDecodeBytes (Utf8.encode input))

def splitQuery (path : Str) : Str × List (Str × Str) :=
  match splitOnce path ['?'] with
  | none => (path, [])
  | some (pathPart, queryPart) =>
    let parts := (queryPart.splitOn '&').filter fun part => !part.isEmpty
    (pathPart, parts.map fun part =>
      match splitOnce part ['='] with
      | some (key, value) => (percentDecode key, percentDecode value)
      | none => (percentDecode part, []))

def normalizePath (path : Str) : Str :=
  let trimmed := trim path
  if trimmed = [] ∨ trimmed = ['/'] then ['/']
  else
    let collapsed := join ['/'] ((trimmed.splitOn '/').filter fun part => !part.isEmpty)
    if collapsed = [] then ['/'] else '/' :: collapsed

def splitRelationFormat (value : Str) : Option (Str × DataFormat) :=
  match rsplitOnce value '.' with
  | some (relation, ext) => (DataFormat.parse ext).map fun format => (relation, format)
  | none => none

theorem splitRelationFormat_eq_some_iff (value relation : Str) (format : DataFormat) :
    splitRelationFormat value = some (relation, format) ↔
      value = relation ++ '.' :: format.extension := by
  have hdot : '.' ∉ format.extension := by cases format <;> decide
  unfold splitRelationFormat
  constructor
  · intro h
    cases hsplit : rsplitOnce value '.' with
    | none => simp [hsplit] at h
    | some p =>
      obtain ⟨before, extension⟩ := p
      simp only [hsplit, Option.map_eq_some_iff, Prod.mk.injEq] at h
      obtain ⟨_, hparse, rfl, rfl⟩ := h
      rw [(DataFormat.parse_eq_some _ _).mp hparse] at hsplit
      exact ((rsplitOnce_eq_some_iff _ _ _ _).mp hsplit).1
  · intro heq
    subst heq
    rw [(rsplitOnce_eq_some_iff _ relation format.extension '.').mpr ⟨rfl, hdot⟩]
    simp [DataFormat.parse_extension]

theorem splitRelationFormat_of_no_dot (value : Str) (h : '.' ∉ value) :
    splitRelationFormat value = none := by
  rw [splitRelationFormat, (rsplitOnce_eq_none_iff value '.').mpr h]

namespace DbPath

def root : DbPath := ⟨none, none, .Root, []⟩

/-- The match of `DbPath::parse` on the components of the clean path. -/
def classify (path : Str) (parts : List Str) (query : List (Str × Str)) :
    Except DbError DbPath :=
  match parts with
  | [schema] => .ok ⟨some schema, none, .Schema, query⟩
  | [schema, relationPart] =>
    match splitRelationFormat relationPart with
    | some (relation, format) => .ok ⟨some schema, some relation, .RelationData format, query⟩
    | none => .ok ⟨some schema, some relationPart, .Relation, query⟩
  | [schema, relation, facet] =>
    if facet = "definition.sql".toList then .ok ⟨some schema, some relation, .ViewDefinition, query⟩
    else
      match DbFacet.parse facet with
      | some facet => .ok ⟨some schema, some relation, .Facet facet none, query⟩
      | none => .error (.InvalidArgument ("unknown database path facet: ".toList ++ facet))
  | [schema, relation, facet, item] =>
    match DbFacet.parse facet with
    | some facet => .ok ⟨some schema, some relation, .Facet facet (some item), query⟩
    | none => .error (.InvalidArgument ("unknown database path facet: ".toList ++ facet))
  | _ => .error (.InvalidArgument ("unsupported database path: ".toList ++ path))

def parse (path : Str) : Except DbError DbPath :=
  let (pathPart, query) := splitQuery (stripProtocol path)
  let clean := normalizePath pathPart
  if clean = ['/'] then .ok { root with query }
  else classify path ((trimStartMatches clean '/').splitOn '/') query

/-- `DbPath::to_path`, without the query. -/
def toPathBase (path : DbPath) : Str :=
  match path.schema, path.relation, path.kind with
  | _, _, .Root => ['/']
  | some schema, _, .Schema => '/' :: schema
  | some schema, some relation, .Relation => '/' :: schema ++ '/' :: relation
  | some schema, some relation, .Facet facet item =>
    let base := '/' :: schema ++ '/' :: relation ++ '/' :: facet.asStr
    match item with
    | some item => base ++ '/' :: item
    | none => base
  | some schema, some relation, .RelationData format =>
    '/' :: schema ++ '/' :: relation ++ '.' :: format.extension
  | some schema, some relation, .ViewDefinition =>
    '/' :: schema ++ '/' :: relation ++ "/definition.sql".toList
  | _, _, _ => ['/']

def toPath (path : DbPath) : Str :=
  if path.query.isEmpty then path.toPathBase
  else
    path.toPathBase ++ '?' :: join ['&'] (path.query.map fun (key, value) => key ++ '=' :: value)

def schemaPath (schema : Str) : Str := '/' :: schema

def relationPath (schema relation : Str) : Str := '/' :: schema ++ '/' :: relation

def facetPath (schema relation : Str) (facet : DbFacet) : Str :=
  '/' :: schema ++ '/' :: relation ++ '/' :: facet.asStr

def facetItemPath (schema relation : Str) (facet : DbFacet) (item : Str) : Str :=
  '/' :: schema ++ '/' :: relation ++ '/' :: facet.asStr ++ '/' :: item

def relationDataPath (schema relation : Str) (format : DataFormat) : Str :=
  '/' :: schema ++ '/' :: relation ++ '.' :: format.extension

def viewDefinitionPath (schema relation : Str) : Str :=
  '/' :: schema ++ '/' :: relation ++ "/definition.sql".toList

end DbPath

/-- `relation_data_file` (fs.rs): a size is only known once everything was read. -/
def relationDataFile (dialect : Dialect) (schema relation : Str) (kind : RelationKind)
    (format : DataFormat) : FileInfo :=
  (((FileInfo.file (DbPath.relationDataPath schema relation format) 0).insert
    "size_known".toList "false".toList).insert
    "kind".toList kind.asStr).insert
    "format".toList format.extension |>.insert
    "dialect".toList dialect.asStr

example : DbPath.parse "db:///main//users.csv?limit=5&where=a%3D1".toList =
    .ok ⟨some "main".toList, some "users".toList, .RelationData .Csv,
      [("limit".toList, "5".toList), ("where".toList, "a=1".toList)]⟩ := by decide

end FsspecDb
