import FsspecDb.Fs.Listings
import FsspecDb.Fs.PyDbFile

/-!
# The ways of writing a relation (spec.py, database.rs)

`pipe_file`, `put_file` from a local file in blocks, a file from `open` that is written and
closed, and the deferred file of a transaction: four ways to the `insert` of the database.
-/

namespace FsspecDb.Fs

/-! ### Exceptions -/

/-- `fsspec_rs::FsError`. -/
inductive FsError where
  | NotFound (msg : Str)
  | PermissionDenied (msg : Str)
  | AlreadyExists (msg : Str)
  | NotADirectory (msg : Str)
  | IsADirectory (msg : Str)
  | IoError (err : FsspecDb.IoError)
  | InvalidArgument (msg : Str)
  | NotSupported (msg : Str)
  | Other (msg : Str)
  deriving Repr, DecidableEq

/-- `impl From<DbError> for FsError`. -/
def FsError.ofDbError : DbError → FsError
  | .NotFound msg => .NotFound msg
  | .PermissionDenied msg => .PermissionDenied msg
  | .AlreadyExists msg => .AlreadyExists msg
  | .NotADirectory msg => .NotADirectory msg
  | .IsADirectory msg => .IsADirectory msg
  | .InvalidArgument msg => .InvalidArgument msg
  | .NotSupported msg => .NotSupported msg
  | .Io err => .IoError err
  | .Arrow msg => .Other msg
  | .Parquet msg => .Other msg
  | .Other msg => .Other msg

def fsErrorToPyerr : FsError → PyErr
  | .NotFound msg => ⟨.FileNotFoundError, msg⟩
  | .PermissionDenied msg => ⟨.PermissionError, msg⟩
  | .AlreadyExists msg => ⟨.FileExistsError, msg⟩
  | .NotADirectory msg => ⟨.NotADirectoryError, msg⟩
  | .IsADirectory msg => ⟨.IsADirectoryError, msg⟩
  | .IoError err => ⟨.OSError, err.message⟩
  | .InvalidArgument msg => ⟨.ValueError, msg⟩
  | .NotSupported msg => ⟨.OSError, "not supported: ".toList ++ msg⟩
  | .Other msg => ⟨.OSError, msg⟩

def dbErrorToPyerr : DbError → PyErr
  | .NotFound msg => ⟨.FileNotFoundError, msg⟩
  | .PermissionDenied msg => ⟨.PermissionError, msg⟩
  | .AlreadyExists msg => ⟨.FileExistsError, msg⟩
  | .NotADirectory msg => ⟨.NotADirectoryError, msg⟩
  | .IsADirectory msg => ⟨.IsADirectoryError, msg⟩
  | .InvalidArgument msg => ⟨.ValueError, msg⟩
  | .NotSupported msg => ⟨.OSError, "not supported: ".toList ++ msg⟩
  | .Io err => ⟨.OSError, err.message⟩
  | .Arrow msg => ⟨.OSError, msg⟩
  | .Parquet msg => ⟨.OSError, msg⟩
  | .Other msg => ⟨.OSError, msg⟩

/- An error is the same exception whether or not it passes through `FsError`. -/
theorem fsErrorToPyerr_ofDbError (err : DbError) :
    fsErrorToPyerr (.ofDbError err) = dbErrorToPyerr err := by
  cases err <;> rfl

/-! ### The bridge -/

variable {σ Stream : Type}

def parseInsertMode (mode : Str) : Except PyErr InsertMode :=
  if mode = "wb".toList ∨ mode = "w".toList ∨ mode = "overwrite".toList ∨
      mode = "truncate".toList then .ok .Truncate
  else if mode = "ab".toList ∨ mode = "a".toList ∨ mode = "append".toList then .ok .Append
  else if mode = "xb".toList ∨ mode = "x".toList ∨ mode = "create".toList then
    .error ⟨.ValueError, "exclusive create is not supported for database relation writes".toList⟩
  else .error ⟨.ValueError, "unsupported database write mode: ".toList ++ mode⟩

/-- The modes that `open_file` and `write_file` are called with. -/
inductive WriteMode where
  | wb
  | ab
  deriving Repr, DecidableEq

namespace WriteMode

def str : WriteMode → Str
  | wb => "wb".toList
  | ab => "ab".toList

/- `OpenMode::Write` and `OpenMode::Append` in `open_write_db`. -/
def insertMode : WriteMode → InsertMode
  | wb => .Truncate
  | ab => .Append

/- `"ab" if mode == "append" else "wb"`. -/
def ofMode (mode : Str) : WriteMode := if mode = "append".toList then ab else wb

theorem parseInsertMode_str (mode : WriteMode) :
    parseInsertMode mode.str = .ok mode.insertMode := by
  cases mode <;> decide

end WriteMode

section
variable (db : Database σ Stream) (decoder : Decoder Stream)

/-- `RustDatabaseFs.write_file`. -/
def rustWriteFile (path : Str) (data : List Byte) (mode : Str) (s : PyFs σ) :
    Except PyErr UInt64 × PyFs σ :=
  match parseInsertMode mode with
  | .error err => (.error err, s)
  | .ok mode =>
    let (result, fs) := writeBytes db decoder path data mode ⟨s.contents, s.rust, s.now, []⟩
    (result.mapError dbErrorToPyerr, { s with contents := fs.contents, rust := fs.cache })

/-- `RustDatabaseFs.open_file` in a mode of writing. -/
def rustOpenWrite (path : Str) (mode : WriteMode) (s : PyFs σ) : Except PyErr WriteHandle :=
  (openWriteDb db s.contents path mode.insertMode true).mapError
    (fsErrorToPyerr ∘ FsError.ofDbError)

/-- The commit of a `RustDbFile`: its uploader is run, and its error comes back. -/
def rustCommit (handle : WriteHandle) (s : PyFs σ) : Except PyErr Unit × PyFs σ :=
  match writeBytesToDatabase db decoder s.contents handle.path handle.buffer handle.mode with
  | (.error err, contents) =>
    (.error (fsErrorToPyerr (.ofDbError err)), { s with contents })
  | (.ok _, contents) => (.ok (), { s with contents })

/-! ### `AbstractDatabaseFileSystem` -/

/-- `_write_file`. -/
def pyWriteFile (path : Str) (data : List Byte) (mode : WriteMode) (s : PyFs σ) :
    Except PyErr Unit × PyFs σ :=
  match rustWriteFile db decoder path data mode.str s with
  | (.error err, s) => (.error err, s)
  | (.ok _, s) => (.ok (), pyInvalidate s)

/- `fsspec`'s `exists`: whether `info` raises nothing; an empty list under its key does. -/
def pyExists (options : ListingsOptions) (kept : Bool) (path : Str) (s : PyFs σ) :
    Bool × PyFs σ :=
  match pyExec db options s (.request (.info path) false kept) with
  | (.value (some _) _, s) => (true, s)
  | (_, s) => (false, s)

/- `if mode == "create" and self.exists(path): raise FileExistsError(path)`. -/
def unlessExists (options : ListingsOptions) (kept : Bool) (path mode : Str)
    (write : PyFs σ → Except PyErr Unit × PyFs σ) (s : PyFs σ) : Except PyErr Unit × PyFs σ :=
  if mode = "create".toList then
    match pyExists db options kept path s with
    | (true, s) => (.error ⟨.FileExistsError, path⟩, s)
    | (false, s) => write s
  else write s

def pipeFile (options : ListingsOptions) (kept : Bool) (path : Str) (value : List Byte)
    (mode : Str) : PyFs σ → Except PyErr Unit × PyFs σ :=
  unlessExists db options kept path mode (pyWriteFile db decoder path value (.ofMode mode))

/-- A local file: the answers of `getsize`, of `open` and of the reads until one is empty. -/
structure LocalFile where
  size : Except PyErr Nat
  opened : Except PyErr Unit
  reads : List (Except PyErr (List Byte))

inductive CallbackCall where
  | setSize (size : Nat)
  | relativeUpdate (inc : Nat)
  deriving Repr, DecidableEq

/- The loop over the blocks: the exception it ends with, the handle, and the sizes written. -/
def copyBlocks : List (Except PyErr (List Byte)) → WriteHandle →
    Option PyErr × WriteHandle × List Nat
  | [], handle => (none, handle, [])
  | .error err :: _, handle => (some err, handle, [])
  | .ok [] :: _, handle => (none, handle, [])
  | .ok (b :: chunk) :: rest, handle =>
    let (err, last, sizes) :=
      copyBlocks rest { handle with buffer := handle.buffer ++ b :: chunk }
    (err, last, (b :: chunk).length :: sizes)

/-- `_copy_local_to_rust_file` with the calls of the callback, if there is one. -/
def copyLocalToRustFile (source : LocalFile) (rpath : Str) (mode : WriteMode)
    (callback : Bool) (s : PyFs σ) : Except PyErr Unit × List CallbackCall × PyFs σ :=
  match if callback then source.size.map some else .ok none with
  | .error err => (.error err, [], s)
  | .ok size =>
    let told := size.toList.map .setSize
    match source.opened with
    | .error err => (.error err, told, s)
    | .ok () =>
      match rustOpenWrite db rpath mode s with
      | .error err => (.error err, told, s)
      | .ok target =>
        let (err, target, sizes) := copyBlocks source.reads target
        let calls := told ++ (if callback then sizes else []).map .relativeUpdate
        match err with
        -- the file is left by an exception, and discarded
        | some err => (.error err, calls, s)
        | none =>
          let (result, s) := rustCommit db decoder target s
          (result, calls, s)

/- `put_file` behind the check for `"create"`. -/
def putWrite (source : LocalFile) (rpath : Str) (mode : WriteMode) (callback : Bool) (s : PyFs σ) :
    Except PyErr Unit × PyFs σ :=
  match copyLocalToRustFile db decoder source rpath mode callback s with
  | (.error err, _, s) => (.error err, s)
  | (.ok (), _, s) => (.ok (), pyInvalidate s)

/-- `put_file` of `AbstractDatabaseFileSystem`. -/
def putFileFrom (options : ListingsOptions) (kept : Bool) (source : LocalFile) (rpath : Str)
    (mode : Str) (callback : Bool) : PyFs σ → Except PyErr Unit × PyFs σ :=
  unlessExists db options kept rpath mode (putWrite db decoder source rpath (.ofMode mode) callback)

end

/-! ### Files from `open` -/

/-- A file that `open` returned for writing. -/
inductive PyHandle where
  | deferred (path : Str) (mode : WriteMode) (buffer : List Byte)
  | rust (handle : WriteHandle)
  deriving Repr, DecidableEq

section
variable (db : Database σ Stream) (decoder : Decoder Stream)

/-- `_open` in one of `_WRITE_OPEN_MODES`, with the mode that `_binary_mode` makes of it. -/
def openForWrite (path : Str) (mode : WriteMode) (autocommit : Bool) (s : PyFs σ) :
    Except PyErr PyHandle × PyFs σ :=
  let s := pyInvalidate s
  if autocommit then ((rustOpenWrite db path mode s).map .rust, s)
  else (.ok (.deferred path mode []), s)

def PyHandle.write (data : List Byte) : PyHandle → PyHandle
  | .deferred path mode buffer => .deferred path mode (buffer ++ data)
  | .rust handle => .rust { handle with buffer := handle.buffer ++ data }

/-- The close of a file that is written at once, or the commit of a deferred one. -/
def PyHandle.finish (handle : PyHandle) (s : PyFs σ) : Except PyErr Unit × PyFs σ :=
  match handle with
  | .deferred path mode buffer => pyWriteFile db decoder path buffer mode s
  | .rust handle => rustCommit db decoder handle s

/- A file that is opened, written piece by piece and finished. -/
def writeThrough (path : Str) (mode : WriteMode) (autocommit : Bool) (pieces : List (List Byte))
    (s : PyFs σ) : Except PyErr Unit × PyFs σ :=
  match openForWrite db path mode autocommit s with
  | (.error err, s) => (.error err, s)
  | (.ok handle, s) =>
    (pieces.foldl (fun handle piece => handle.write piece) handle).finish db decoder s

end

/-! ### One write of the database -/

/-- What every way comes down to. -/
def atomicWrite (db : Database σ Stream) (decoder : Decoder Stream) (path : Str)
    (data : List Byte) (mode : InsertMode) (contents : σ) : Except PyErr Unit × σ :=
  let (result, contents) := writeBytesToDatabase db decoder contents path data mode
  ((result.map fun _ => ()).mapError dbErrorToPyerr, contents)

section
variable (db : Database σ Stream) (decoder : Decoder Stream)

theorem pyWriteFile_atomic (path : Str) (data : List Byte) (mode : WriteMode) (s : PyFs σ) :
    (pyWriteFile db decoder path data mode s).1 =
        (atomicWrite db decoder path data mode.insertMode s.contents).1 ∧
      (pyWriteFile db decoder path data mode s).2.contents =
        (atomicWrite db decoder path data mode.insertMode s.contents).2 := by
  unfold pyWriteFile rustWriteFile atomicWrite writeBytes
  rw [mode.parseInsertMode_str]
  dsimp only
  cases writeBytesToDatabase db decoder s.contents path data mode.insertMode with
  | mk result contents => cases result <;> exact ⟨rfl, rfl⟩

theorem rustCommit_atomic (handle : WriteHandle) (s : PyFs σ) :
    (rustCommit db decoder handle s).1 =
        (atomicWrite db decoder handle.path handle.buffer handle.mode s.contents).1 ∧
      (rustCommit db decoder handle s).2 = { s with contents :=
        (atomicWrite db decoder handle.path handle.buffer handle.mode s.contents).2 } := by
  unfold rustCommit atomicWrite
  cases writeBytesToDatabase db decoder s.contents handle.path handle.buffer handle.mode with
  | mk result contents =>
    cases result with
    | error err => exact ⟨congrArg Except.error (fsErrorToPyerr_ofDbError err), rfl⟩
    | ok written => exact ⟨rfl, rfl⟩

/- A target that is refused when a file is opened is refused by the write as well. -/
theorem atomicWrite_refused (path : Str) (data : List Byte) (mode : InsertMode) (contents : σ)
    (err : DbError) (h : writeTarget db contents path = .error err) :
    atomicWrite db decoder path data mode contents =
      (.error (dbErrorToPyerr err), contents) := by
  unfold atomicWrite writeBytesToDatabase
  rw [h]
  rfl

theorem rustOpenWrite_eq (path : Str) (mode : WriteMode) (s : PyFs σ) :
    rustOpenWrite db path mode s = match writeTarget db s.contents path with
      | .error err => .error (dbErrorToPyerr err)
      | .ok _ => .ok ⟨path, mode.insertMode, [], false⟩ := by
  unfold rustOpenWrite openWriteDb
  cases writeTarget db s.contents path with
  | error err => exact congrArg Except.error (fsErrorToPyerr_ofDbError err)
  | ok target => rfl

/-! ### The blocks of a local file -/

namespace LocalFile

/- The bytes up to the first empty block, or the exception before it. -/
def readAll : List (Except PyErr (List Byte)) → Except PyErr (List Byte)
  | [] => .ok []
  | .error err :: _ => .error err
  | .ok [] :: _ => .ok []
  | .ok (b :: chunk) :: rest => (readAll rest).map fun data => b :: chunk ++ data

/-- The bytes of a local file of which nothing fails. -/
def data (source : LocalFile) (callback : Bool) : Except PyErr (List Byte) := do
  if callback then
    let _ ← source.size
  source.opened
  readAll source.reads

end LocalFile

/- The loop buffers the bytes of the file, and the sizes it reports add up to their number. -/
theorem copyBlocks_ok (reads : List (Except PyErr (List Byte))) (data : List Byte)
    (handle : WriteHandle) (h : LocalFile.readAll reads = .ok data) :
    ∃ sizes, copyBlocks reads handle =
        (none, { handle with buffer := handle.buffer ++ data }, sizes) ∧
      sizes.sum = data.length := by
  induction reads generalizing data handle with
  | nil =>
    rw [← Except.ok.inj h]
    exact ⟨[], by rw [List.append_nil]; rfl, rfl⟩
  | cons read rest ih =>
    match read, h with
    | .ok [], h =>
      rw [← Except.ok.inj h]
      exact ⟨[], by rw [List.append_nil]; rfl, rfl⟩
    | .ok (b :: chunk), h =>
      obtain ⟨tail, htail, hdata⟩ := Checked.map_eq_ok_iff.mp h
      obtain ⟨sizes, hcopy, hsum⟩ :=
        ih tail { handle with buffer := handle.buffer ++ b :: chunk } htail
      refine ⟨(b :: chunk).length :: sizes, ?_, ?_⟩
      · simp only [copyBlocks, hcopy, List.append_assoc, ← hdata]
      · rw [List.sum_cons, hsum, ← hdata, List.length_append]

theorem copyBlocks_error (reads : List (Except PyErr (List Byte))) (err : PyErr)
    (handle : WriteHandle) (h : LocalFile.readAll reads = .error err) :
    (copyBlocks reads handle).1 = some err := by
  induction reads generalizing handle with
  | nil => cases h
  | cons read rest ih =>
    match read, h with
    | .error err', h => rw [Except.error.inj h, copyBlocks]
    | .ok (b :: chunk), h => exact ih _ (Checked.map_eq_error_iff.mp h)

/- What the callback was told to have been written. -/
def updated (calls : List CallbackCall) : Nat :=
  (calls.map fun
    | .setSize _ => 0
    | .relativeUpdate inc => inc).sum

theorem updated_told (size : Option Nat) (sizes : List Nat) :
    updated (size.toList.map .setSize ++ sizes.map .relativeUpdate) = sizes.sum := by
  have hsizes : updated (sizes.map .relativeUpdate) = sizes.sum := by
    rw [updated, List.map_map]
    exact congrArg List.sum (List.map_id sizes)
  cases size with
  | none => exact hsizes
  | some size =>
    rw [Option.toList_some, List.map_singleton, List.singleton_append, updated, List.map_cons,
      List.sum_cons, Nat.zero_add]
    exact hsizes

/- A local file without a failure is one write of its bytes. -/
theorem copyLocalToRustFile_ok (source : LocalFile) (rpath : Str) (mode : WriteMode)
    (callback : Bool) (s : PyFs σ) (data : List Byte) (h : source.data callback = .ok data) :
    let written := atomicWrite db decoder rpath data mode.insertMode s.contents
    ∃ calls, copyLocalToRustFile db decoder source rpath mode callback s =
        (written.1, calls, { s with contents := written.2 }) ∧
      (callback = true → written.1 = .ok () → updated calls = data.length) := by
  obtain ⟨size, hsize, hopened, hreads⟩ : ∃ size,
      (if callback then source.size.map some else .ok none) = .ok size ∧
        source.opened = .ok () ∧ LocalFile.readAll source.reads = .ok data := by
    unfold LocalFile.data at h
    cases callback with
    | false =>
      obtain ⟨_, hopened, hreads⟩ := Checked.bind_eq_ok_iff.mp h
      exact ⟨none, rfl, hopened, hreads⟩
    | true =>
      obtain ⟨size, hsize, h⟩ := Checked.bind_eq_ok_iff.mp h
      obtain ⟨_, hopened, hreads⟩ := Checked.bind_eq_ok_iff.mp h
      exact ⟨some size, by rw [if_pos rfl, hsize]; rfl, hopened, hreads⟩
  unfold copyLocalToRustFile
  rw [hsize, hopened]
  dsimp only
  rw [rustOpenWrite_eq]
  cases htarget : writeTarget db s.contents rpath with
  | error err =>
    rw [atomicWrite_refused db decoder rpath data _ _ err htarget]
    exact ⟨_, rfl, fun _ h => by cases h⟩
  | ok target =>
    obtain ⟨sizes, hcopy, hsum⟩ :=
      copyBlocks_ok source.reads data ⟨rpath, mode.insertMode, [], false⟩ hreads
    obtain ⟨hresult, hstate⟩ := rustCommit_atomic db decoder
      ⟨rpath, mode.insertMode, data, false⟩ s
    rw [List.nil_append] at hcopy
    dsimp only
    rw [hcopy]
    dsimp only
    rw [← hresult, ← hstate]
    refine ⟨_, rfl, fun hcallback _ => ?_⟩
    rw [updated_told, if_pos hcallback, hsum]

/- A failure on the local side writes nothing. -/
theorem copyLocalToRustFile_error (source : LocalFile) (rpath : Str) (mode : WriteMode)
    (callback : Bool) (s : PyFs σ) (err : PyErr) (h : source.data callback = .error err) :
    ∃ err' calls, copyLocalToRustFile db decoder source rpath mode callback s =
      (.error err', calls, s) := by
  unfold copyLocalToRustFile
  cases hsize : if callback then source.size.map some else .ok none with
  | error err' => exact ⟨err', _, rfl⟩
  | ok size =>
    cases hopened : source.opened with
    | error err' => exact ⟨err', _, rfl⟩
    | ok opened =>
      dsimp only
      rw [rustOpenWrite_eq]
      cases writeTarget db s.contents rpath with
      | error err' => exact ⟨_, _, rfl⟩
      | ok target =>
        have hreads : LocalFile.readAll source.reads = .error err := by
          unfold LocalFile.data at h
          rw [hopened] at h
          cases callback with
          | false => exact h
          | true =>
            cases hread : source.size with
            | error err' =>
              rw [hread] at hsize
              cases hsize
            | ok n =>
              rw [hread] at h
              exact h
        have hfails := copyBlocks_error source.reads err ⟨rpath, mode.insertMode, [], false⟩ hreads
        dsimp only
        rw [hfails]
        exact ⟨err, _, rfl⟩

end

end FsspecDb.Fs
