import FsspecDb.Ddl.Mixin
import FsspecDb.Fs.Sessions

/-!
# The calls of one client (spec.py, `AbstractDatabaseFileSystem`)

Listings, metadata, writes and the DDL methods of a filesystem with its two caches, and the same
calls on the database alone.
-/

namespace FsspecDb.Client
open Fs Ddl

variable {σ Stream : Type}

/-! ### `rm_file` around its call of `info` -/

/- Whether `rm_file` comes as far as `self.info(path)`. -/
def asksInfo (fs : DdlFs) (path : Str) : Bool :=
  match fs.requireDdl, ddlPath path with
  | .ok (), .ok (_, some _, none) => true
  | _, _ => false

/- `self.info(path).get("kind", "table")` before the default. -/
def kindOf (info : FileInfo) : Option Str := info.extra.lookup "kind".toList

/-! ### Calls -/

/-- A call of the client, or time passing. `writeThrough` is a `with` block whose body writes. -/
inductive ClientOp where
  | request (request : Request) (refresh kept : Bool)
  | pipe (path : Str) (value : List Byte) (mode : Str) (kept : Bool)
  | put (source : LocalFile) (rpath mode : Str) (callback kept : Bool)
  | writeThrough (path : Str) (mode : WriteMode) (autocommit : Bool) (pieces : List (List Byte))
  | mkdir (path : Str) (sql : Option Str) (arrowSchema : Option (List PaField))
  | rmFile (path : Str) (kept : Bool)
  | mv (path1 path2 : Str)
  | invalidateCache
  | advance (elapsed : Nat)

inductive ClientAnswer where
  | read (value : CachedIntrospection)
  | done
  | raised (err : PyErr)
  | refused (err : PyError)
  | indexError
  deriving Repr, DecidableEq

namespace ClientAnswer

def ofRead : Except DbError CachedIntrospection → ClientAnswer
  | .ok value => read value
  | .error err => raised (dbErrorToPyerr err)

def ofWrite : Except PyErr Unit → ClientAnswer
  | .ok () => done
  | .error err => raised err

def ofPyAnswer : PyAnswer → ClientAnswer
  | .value (some value) _ => read value
  | .value none _ => indexError
  | .failed err => raised (dbErrorToPyerr err)
  | .done => done

end ClientAnswer

/-! ### With the caches -/

section
variable (db : Database σ Stream) (decoder : Decoder Stream) (fs : DdlFs)
  (query : σ → Str → Except PyErr Unit × σ)

/-- `self.query(sql)` and `self.invalidate_cache(path)`. -/
def runSql (sql : Except PyError Str) (s : PyFs σ) : ClientAnswer × PyFs σ :=
  match sql with
  | .error err => (.refused err, s)
  | .ok sql =>
    match query s.contents sql with
    | (.error err, contents) => (.raised err, { s with contents })
    | (.ok (), contents) => (.done, pyInvalidate { s with contents })

def clientExec (options : ListingsOptions) (s : PyFs σ) : ClientOp → ClientAnswer × PyFs σ
  | .request request refresh kept =>
    (pyExec db options s (.request request refresh kept)).map .ofPyAnswer id
  | .pipe path value mode kept =>
    (pipeFile db decoder options kept path value mode s).map .ofWrite id
  | .put source rpath mode callback kept =>
    (putFileFrom db decoder options kept source rpath mode callback s).map .ofWrite id
  | .writeThrough path mode autocommit pieces =>
    (writeThrough db decoder path mode autocommit pieces s).map .ofWrite id
  | .mkdir path sql arrowSchema => runSql query (fs.mkdir path sql arrowSchema) s
  | .rmFile path kept =>
    if asksInfo fs path then
      match pyExec db options s (.request (.info path) false kept) with
      | (.value (some (.Info info)) _, s) => runSql query (fs.rmFileOf (.ok (kindOf info)) path) s
      | (.failed err, s) => (.raised (dbErrorToPyerr err), s)
      | (_, s) => (.indexError, s)
    else runSql query (fs.rmFileOf (.ok none) path) s
  | .mv path1 path2 => runSql query (fs.mv path1 path2) s
  | .invalidateCache => (.done, pyInvalidate s)
  | .advance elapsed => (.done, { s with now := s.now + elapsed })

/-! ### On the database alone -/

def plainSql (sql : Except PyError Str) (contents : σ) : ClientAnswer × σ :=
  match sql with
  | .error err => (.refused err, contents)
  | .ok sql => (query contents sql).map .ofWrite id

/- The mode `"create"` refuses what `info_db` knows. -/
def plainUnlessExists (path mode : Str) (write : σ → Except PyErr Unit × σ) (contents : σ) :
    Except PyErr Unit × σ :=
  if mode = "create".toList ∧ (infoDb db contents path).isOk then
    (.error ⟨.FileExistsError, path⟩, contents)
  else write contents

/- A copy does not look at the caches. -/
def plainPut (source : LocalFile) (rpath : Str) (mode : WriteMode) (callback : Bool)
    (contents : σ) : Except PyErr Unit × σ :=
  let (result, _, s) := copyLocalToRustFile db decoder source rpath mode callback
    (pyStart contents 0)
  (result, s.contents)

/-- What the calls are meant to be: each asks the database, or changes it in one step. -/
def plainExec (contents : σ) : ClientOp → ClientAnswer × σ
  | .request request _ _ => (.ofRead (readDb db contents request), contents)
  | .pipe path value mode _ =>
    (plainUnlessExists db path mode
      (atomicWrite db decoder path value (WriteMode.ofMode mode).insertMode) contents).map
        .ofWrite id
  | .put source rpath mode callback _ =>
    (plainUnlessExists db rpath mode
      (plainPut db decoder source rpath (.ofMode mode) callback) contents).map .ofWrite id
  | .writeThrough path mode _ pieces =>
    (atomicWrite db decoder path pieces.flatten mode.insertMode contents).map .ofWrite id
  | .mkdir path sql arrowSchema => plainSql query (fs.mkdir path sql arrowSchema) contents
  | .rmFile path _ =>
    if asksInfo fs path then
      match infoDb db contents path with
      | .ok info => plainSql query (fs.rmFileOf (.ok (kindOf info)) path) contents
      | .error err => (.raised (dbErrorToPyerr err), contents)
    else plainSql query (fs.rmFileOf (.ok none) path) contents
  | .mv path1 path2 => plainSql query (fs.mv path1 path2) contents
  | .invalidateCache | .advance _ => (.done, contents)

end

end FsspecDb.Client
