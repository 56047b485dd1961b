import FsspecDb.Path.Urllib

/-!
# Paths on the Python side (python.py, spec.py)

`PyDatabaseFileSystem` has a parser of its own, on top of `urlsplit`, and the DDL
methods have a third splitter, `_ddl_path`.
-/

namespace FsspecDb.Ddl
open Text

/-- The exceptions that are raised here, and those of a call into the database. -/
inductive PyError where
  | ValueError (msg : Str)
  | PermissionError (msg : Str)
  | NotImplementedError (msg : Str)
  | TypeError (msg : Str)
  | Raised (msg : Str)
  deriving Repr, DecidableEq

/-! ### `urllib.parse.urlsplit` -/

structure SplitResult where
  scheme : Str
  netloc : Str
  path : Str
  query : Str
  fragment : Str
  deriving Repr, DecidableEq

def isSchemeChar (c : Char) : Bool := c.isAlphanum || c = '+' || c = '-' || c = '.'

/-- The scheme and what comes after its colon, if there is one. -/
def splitScheme (url : Str) : Str × Str :=
  match splitOnce url [':'] with
  | some (c :: scheme, rest) =>
    if c.isAlpha && scheme.all isSchemeChar then (toAsciiLowercase (c :: scheme), rest)
    else ([], url)
  | _ => ([], url)

def splitNetloc (url : Str) : Str × Str :=
  match url with
  | '/' :: '/' :: rest => rest.span fun c => !(c = '/' || c = '?' || c = '#')
  | _ => ([], url)

/-- `urlsplit`. `netlocError` is the message of the `ValueError` for a network location
with wrong brackets or characters. -/
def urlsplit (netlocError : Str → Option Str) (url : Str) : Except PyError SplitResult :=
  let url := (url.dropWhile fun c => c.toNat ≤ 0x20).filter fun c =>
    !(c = '\t' || c = '\r' || c = '\n')
  let (scheme, url) := splitScheme url
  let (netloc, url) := splitNetloc url
  match if netloc = [] then none else netlocError netloc with
  | some msg => .error (.ValueError msg)
  | none =>
    let (url, fragment) := (splitOnce url ['#']).getD (url, [])
    let (path, query) := (splitOnce url ['?']).getD (url, [])
    .ok ⟨scheme, netloc, path, query, fragment⟩

/-! ### `_parse_path` -/

inductive PathKind where
  | root
  | schema
  | data
  | relation
  | definition
  | facet
  deriving Repr, DecidableEq

/-- `_Path`; `format` holds the facet's name where there is one. -/
structure Path where
  schema : Option Str
  relation : Option Str
  kind : PathKind
  item : Option Str
  format : Option Str
  query : List (Str × Str)
  deriving Repr, DecidableEq

/- The cases of `_parse_path` on the components. -/
def classifyParts (path : Str) (parts : List Str) (query : List (Str × Str)) :
    Except PyError Path :=
  match parts with
  | [schema] => .ok ⟨some schema, none, .schema, none, none, query⟩
  | [schema, relation] =>
    match splitRelationFormat relation with
    | some (name, format) =>
      .ok ⟨some schema, some name, .data, none, some format.extension, query⟩
    | none => .ok ⟨some schema, some relation, .relation, none, none, query⟩
  | [schema, relation, facet] =>
    if facet = "definition.sql".toList then
      .ok ⟨some schema, some relation, .definition, none, none, query⟩
    else if (DbFacet.parse facet).isSome then
      .ok ⟨some schema, some relation, .facet, none, some facet, query⟩
    else .error (.ValueError ("unsupported database path: ".toList ++ path))
  | [schema, relation, facet, item] =>
    if (DbFacet.parse facet).isSome then
      .ok ⟨some schema, some relation, .facet, some item, some facet, query⟩
    else .error (.ValueError ("unsupported database path: ".toList ++ path))
  | _ => .error (.ValueError ("unsupported database path: ".toList ++ path))

def parsePath (netlocError : Str → Option Str) (path : Str) : Except PyError Path :=
  match urlsplit netlocError path with
  | .error err => .error err
  | .ok parsed =>
    let clean := strip (stripProtocol parsed.path) '/'
    let query := Urllib.parseQsl parsed.query
    if clean = [] then .ok ⟨none, none, .root, none, none, query⟩
    else classifyParts path (clean.splitOn '/') query

/-! ### `_ddl_path` -/

/-- The components that `_ddl_path` looks at. -/
def ddlComponents (path : Str) : List Str :=
  let clean := strip ((splitOnce path ['?']).elim path Prod.fst) '/'
  if clean = [] then [] else clean.splitOn '/'

/-- `_ddl_path`: schema, relation and extension. -/
def ddlPath (path : Str) : Except PyError (Str × Option Str × Option Str) :=
  match ddlComponents path with
  | [schema] => .ok (schema, none, none)
  | [schema, last] =>
    match rsplitOnce last '.' with
    | some (relation, extension) => .ok (schema, some relation, some extension)
    | none => .ok (schema, some last, none)
  | _ => .error (.ValueError ("unsupported database DDL path: ".toList ++ path))

end FsspecDb.Ddl
