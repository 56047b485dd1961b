import FsspecDb.Arrow
import FsspecDb.Fs.Cache

/-!
# DatabaseFs (fs.rs)

`ls` and `info` behind the introspection cache, and the three ways of writing:
`write_bytes`, `put_file`, and a handle from `open` that uploads on commit.
-/

namespace FsspecDb.Fs
open Text

inductive CachedIntrospection where
  | Listing (entries : List FileInfo)
  | Info (info : FileInfo)
  deriving Repr, DecidableEq

/-- A cached value. `readAt` is no part of the code: it says when the value was
read from the database, in the terms a proof about the cache wants. -/
structure Cached (γ : Type) where
  value : CachedIntrospection
  readAt : γ

inductive Request where
  | ls (path : Str)
  | info (path : Str)
  deriving Repr, DecidableEq

namespace Request

/-- The cache key, `format!("ls:{path}")` or `format!("info:{path}")`. -/
def key : Request → Str
  | .ls path => "ls:".toList ++ path
  | .info path => "info:".toList ++ path

/-- The pattern of the `if let` on a hit. -/
def fits : Request → CachedIntrospection → Bool
  | .ls _, .Listing _ => true
  | .info _, .Info _ => true
  | _, _ => false

theorem key_injective (r r' : Request) (h : r.key = r'.key) : r = r' := by
  cases r with
  | ls path =>
    cases r' with
    | ls path' => rw [List.append_cancel_left h]
    | info path' => exact absurd (List.cons.inj h).1 (by decide)
  | info path =>
    cases r' with
    | ls path' => exact absurd (List.cons.inj h).1 (by decide)
    | info path' => rw [List.append_cancel_left h]

end Request

variable {σ Stream γ : Type}

def readDb (db : Database σ Stream) (contents : σ) : Request → Except DbError CachedIntrospection
  | .ls path => (lsDb db contents path).map .Listing
  | .info path => (infoDb db contents path).map .Info

/-- The first part of `ls` and `info`: the lookup under the lock. -/
def lookupCached (now : Nat) (request : Request) (cache : IntrospectionCache (Cached γ)) :
    Option (Cached γ) × IntrospectionCache (Cached γ) :=
  match cache.get now request.key with
  | (some cached, cache) =>
    if request.fits cached.value then (some cached, cache) else (none, cache)
  | (none, cache) => (none, cache)

/-- `ls` and `info`: a lookup, on a miss the read from the database, and the
insert of a value that was read. -/
def cachedRead (db : Database σ Stream) (contents : σ) (now : Nat) (readAt : γ) (request : Request)
    (cache : IntrospectionCache (Cached γ)) :
    Except DbError (Cached γ) × IntrospectionCache (Cached γ) :=
  match lookupCached now request cache with
  | (some cached, cache) => (.ok cached, cache)
  | (none, cache) =>
    match readDb db contents request with
    | .error err => (.error err, cache)
    | .ok value => (.ok ⟨value, readAt⟩, cache.insert now request.key ⟨value, readAt⟩)

/-! ### Writing -/

structure Decoder (Stream : Type) where
  parquetToArrow : List Byte → Except DbError Stream
  ipcToArrow : List Byte → Except DbError Stream
  csvToArrow : List Byte → Schema → Except DbError Stream
  jsonlToArrow : List Byte → Schema → Except DbError Stream

def arrowTypeForDatabaseType (dataType : Str) : DataType :=
  let normalized := toAsciiLowercase dataType
  if contains normalized "bool".toList then .Boolean
  else if contains normalized "int".toList then .Int64
  else if contains normalized "real".toList || contains normalized "floa".toList ||
      contains normalized "doub".toList || contains normalized "numeric".toList ||
      contains normalized "decimal".toList then .Float64
  else if contains normalized "blob".toList || contains normalized "binary".toList then .Binary
  else .Utf8

def arrowSchema (db : Database σ Stream) (contents : σ) (schema relation : Str) :
    Except DbError Schema := do
  let columns ← db.listColumns contents schema relation
  return columns.map fun column =>
    ⟨column.name, arrowTypeForDatabaseType column.dataType, column.nullable⟩

/- The checks that `open_write_db` and `write_bytes_to_database` begin with. -/
def writeTarget (db : Database σ Stream) (contents : σ) (path : Str) :
    Except DbError (Str × Str × DataFormat) := do
  let parsed ← DbPath.parse path
  match parsed.kind with
  | .RelationData format =>
    if format = .Sql then
      .error (.NotSupported "database DDL writes are not supported yet".toList)
    else
      let (schema, relation) ← requiredRelation parsed
      let info ← db.relationInfo contents schema relation
      if info.kind ≠ .Table then
        .error (.NotSupported ("database writes require a table path: ".toList ++ path))
      else return (schema, relation, format)
  | _ => .error (.InvalidArgument
    ("database writes require a relation data path: ".toList ++ path))

def decodeStream (db : Database σ Stream) (decoder : Decoder Stream) (contents : σ)
    (schema relation : Str) (format : DataFormat) (data : List Byte) : Except DbError Stream :=
  match format with
  | .Parquet => decoder.parquetToArrow data
  | .Arrow => decoder.ipcToArrow data
  | .Csv => do decoder.csvToArrow data (← arrowSchema db contents schema relation)
  | .Jsonl => do decoder.jsonlToArrow data (← arrowSchema db contents schema relation)
  | .Sql => .error (.Other "internal error: entered unreachable code".toList)

def writeBytesToDatabase (db : Database σ Stream) (decoder : Decoder Stream) (contents : σ)
    (path : Str) (data : List Byte) (mode : InsertMode) : Except DbError UInt64 × σ :=
  match writeTarget db contents path with
  | .error err => (.error err, contents)
  | .ok (schema, relation, format) =>
    match decodeStream db decoder contents schema relation format data with
    | .error err => (.error err, contents)
    | .ok reader => db.insert contents schema relation reader mode

/-- A handle of `open_write_db`: its uploader's path and mode, and the bytes
buffered so far. -/
structure WriteHandle where
  path : Str
  mode : InsertMode
  buffer : List Byte
  committed : Bool
  deriving Repr, DecidableEq

def openWriteDb (db : Database σ Stream) (contents : σ) (path : Str) (mode : InsertMode)
    (autocommit : Bool) : Except DbError WriteHandle := do
  if !autocommit then
    .error (.NotSupported
      "autocommit=False is not supported for database relation writes".toList)
  else
    let _ ← writeTarget db contents path
    return ⟨path, mode, [], false⟩

/-- The contents of the database, the cache, the time, and the handles opened. -/
structure FsState (σ γ : Type) where
  contents : σ
  cache : IntrospectionCache (Cached γ)
  now : Nat
  handles : List WriteHandle

/-- A call of the filesystem or of a handle, or time passing. -/
inductive Op where
  | request (request : Request)
  | writeBytes (path : Str) (data : List Byte) (mode : InsertMode)
  | putFile (file : Except DbError (List Byte)) (remote : Str)
  | invalidateCache
  | openWrite (path : Str) (mode : InsertMode) (autocommit : Bool)
  | handleWrite (handle : Nat) (data : List Byte)
  | commit (handle : Nat)
  | advance (elapsed : Nat)

inductive Answer where
  | value (value : CachedIntrospection)
  | written (rows : UInt64)
  | opened (handle : Nat)
  | done
  | failed (err : DbError)
  deriving Repr, DecidableEq

/-- `DatabaseFs::write_bytes`: the cache is cleared where the write succeeded. -/
def writeBytes (db : Database σ Stream) (decoder : Decoder Stream) (path : Str) (data : List Byte)
    (mode : InsertMode) (s : FsState σ γ) : Except DbError UInt64 × FsState σ γ :=
  match writeBytesToDatabase db decoder s.contents path data mode with
  | (.error err, contents) => (.error err, { s with contents })
  | (.ok written, contents) => (.ok written, { s with contents, cache := s.cache.clear })

/-- `DatabaseFs::put_file`, given what reading the local file answers. -/
def putFile (db : Database σ Stream) (decoder : Decoder Stream)
    (file : Except DbError (List Byte)) (remote : Str) (s : FsState σ γ) :
    Except DbError Unit × FsState σ γ :=
  match file with
  | .error err => (.error err, s)
  | .ok data =>
    match writeBytes db decoder remote data .Truncate s with
    | (.error err, s) => (.error err, s)
    | (.ok _, s) => (.ok (), { s with cache := s.cache.clear })

/-- The handle under an index, unless its upload has run. -/
def openHandle (s : FsState σ γ) (handle : Nat) : Option WriteHandle :=
  s.handles[handle]?.filter fun h => !h.committed

def exec (db : Database σ Stream) (decoder : Decoder Stream) (readAt : γ) (s : FsState σ γ) :
    Op → Answer × FsState σ γ
  | .request request =>
    match cachedRead db s.contents s.now readAt request s.cache with
    | (.ok cached, cache) => (.value cached.value, { s with cache })
    | (.error err, cache) => (.failed err, { s with cache })
  | .writeBytes path data mode =>
    match writeBytes db decoder path data mode s with
    | (.ok written, s) => (.written written, s)
    | (.error err, s) => (.failed err, s)
  | .putFile file remote =>
    match putFile db decoder file remote s with
    | (.ok (), s) => (.done, s)
    | (.error err, s) => (.failed err, s)
  | .invalidateCache => (.done, { s with cache := s.cache.clear })
  | .openWrite path mode autocommit =>
    match openWriteDb db s.contents path mode autocommit with
    | .ok handle => (.opened s.handles.length, { s with handles := s.handles ++ [handle] })
    | .error err => (.failed err, s)
  | .handleWrite handle data =>
    match openHandle s handle with
    | some h => (.done,
        { s with handles := s.handles.set handle { h with buffer := h.buffer ++ data } })
    | none => (.done, s)
  | .commit handle =>
    match openHandle s handle with
    | some h =>
      let handles := s.handles.set handle { h with committed := true }
      match writeBytesToDatabase db decoder s.contents h.path h.buffer h.mode with
      | (.ok written, contents) => (.written written, { s with contents, handles })
      | (.error err, contents) => (.failed err, { s with contents, handles })
    | none => (.done, s)
  | .advance elapsed => (.done, { s with now := s.now + elapsed })

end FsspecDb.Fs
