import FsspecDb.Fs.CatFile

/-!
# The file object of Python over a read (database.rs, `RustDbFile`)

`PyDbFile` holds the `Box<dyn FsFile>` of a path until it is closed. Over a file that can be read
to its end, every sequence of its methods is answered as a plain file of the bytes answers it.
-/

namespace FsspecDb.Fs
open Encoded

/-- The exception classes that the bindings raise. -/
inductive PyErrClass where
  | FileNotFoundError
  | PermissionError
  | FileExistsError
  | NotADirectoryError
  | IsADirectoryError
  | ValueError
  | OSError
  deriving Repr, DecidableEq

structure PyErr where
  cls : PyErrClass
  message : Str
  deriving Repr, DecidableEq

/- The last arm of the source's `match` is for `Other`. -/
def ioErrorToPyerr (err : IoError) : PyErr :=
  match err.kind with
  | .NotFound => ⟨.FileNotFoundError, err.message⟩
  | .PermissionDenied => ⟨.PermissionError, err.message⟩
  | .AlreadyExists => ⟨.FileExistsError, err.message⟩
  | .InvalidInput | .InvalidData => ⟨.ValueError, err.message⟩
  | .Unsupported => ⟨.OSError, "not supported: ".toList ++ err.message⟩
  | .Other => ⟨.OSError, err.message⟩

/-- `fsspec_rs::OpenMode`. -/
inductive OpenMode where
  | Read
  | Write
  | Append
  | Exclusive
  deriving Repr, DecidableEq

/-- What a method returns. -/
inductive PyValue where
  | none
  | bool (value : Bool)
  | int (value : Nat)
  | size (value : Option Nat)
  | bytes (data : List Byte)
  deriving Repr, DecidableEq

/- `info` returns the dictionary of the file's `FileInfo`. -/
inductive PyCall where
  | read (size : Int64)
  | write (data : List Byte)
  | seek (offset : Int64) (whence : UInt8)
  | tell
  | flush
  | close
  | discard
  | closed
  | readable
  | writable
  | seekable
  | size
  | exit (exception : Bool)
  deriving Repr, DecidableEq

/-- An answer, or `none` for a method whose read loop has not ended. -/
abbrev MethodAnswer := Option (Except PyErr PyValue)

/-- What `fsspec_rs` does in `commit` and `discard` of a file that has none of its own. -/
structure Defaults where
  commit : Except PyErr Unit
  discard : Except PyErr Unit

/-! ### The methods -/

def readOnly : IoError := ⟨.Unsupported, "database file is read-only".toList⟩

namespace FsFile

variable {Writer Schema Batch : Type}

/- `writable` is false in every `DbFile` there is. -/
def write (_ : FsFile Writer Schema Batch) (_ : List Byte) : Except IoError Nat :=
  .error readOnly

def size : FsFile Writer Schema Batch → Option Nat
  | .db file => some file.cursor.inner.length
  | .encoded file => file.size

end FsFile

structure PyDbFile (Writer Schema Batch : Type) where
  inner : Option (FsFile Writer Schema Batch)
  mode : OpenMode

def fileIsClosed : PyErr := ⟨.ValueError, "file is closed".toList⟩

/- The `SeekFrom` of Python's offset and whence. -/
def seekFrom (offset : Int64) (whence : UInt8) : Except PyErr SeekFrom :=
  if whence = 0 then
    if offset < 0 then .error ⟨.ValueError, "negative seek position".toList⟩
    else .ok (.Start offset.toUInt64)
  else if whence = 1 then .ok (.Current offset)
  else if whence = 2 then .ok (.End offset)
  else .error ⟨.ValueError, "whence must be 0, 1, or 2".toList⟩

namespace PyDbFile

variable {Writer Schema Batch : Type}

section
variable (codecs : Codecs Writer Schema Batch) (defaults : Defaults) (sizes : Nat → ℕ+)
  (fuel : Nat)

def read (size : Int64) (self : PyDbFile Writer Schema Batch) :
    MethodAnswer × PyDbFile Writer Schema Batch :=
  match self.inner with
  | none => (some (.error fileIsClosed), self)
  | some file =>
    if size < 0 then
      match Reading.drain (FsFile.read codecs) sizes fuel 0 file with
      | none => (none, self)
      | some (result, next) =>
        (some ((result.mapError ioErrorToPyerr).map .bytes), { self with inner := some next })
    else
      let (result, next) := file.read codecs size.toNatClampNeg
      (some ((result.mapError ioErrorToPyerr).map .bytes), { self with inner := some next })

def write (data : List Byte) (self : PyDbFile Writer Schema Batch) : Except PyErr PyValue :=
  match self.inner with
  | none => .error fileIsClosed
  | some file => ((file.write data).mapError ioErrorToPyerr).map .int

def seek (offset : Int64) (whence : UInt8) (self : PyDbFile Writer Schema Batch) :
    Except PyErr PyValue × PyDbFile Writer Schema Batch :=
  match self.inner with
  | none => (.error fileIsClosed, self)
  | some file =>
    match seekFrom offset whence with
    | .error err => (.error err, self)
    | .ok position =>
      let (result, next) := file.seek codecs position
      ((result.mapError ioErrorToPyerr).map .int, { self with inner := some next })

def finish (action : Except PyErr Unit) (self : PyDbFile Writer Schema Batch) :
    Except PyErr PyValue × PyDbFile Writer Schema Batch :=
  match self.inner with
  | none => (.ok .none, self)
  | some _ =>
    match action with
    | .error err => (.error err, self)
    | .ok () => (.ok .none, { self with inner := none })

def call (self : PyDbFile Writer Schema Batch) (c : PyCall) :
    MethodAnswer × PyDbFile Writer Schema Batch :=
  match c with
  | .read size => self.read codecs sizes fuel size
  | .write data => (some (self.write data), self)
  | .seek offset whence =>
    (some (self.seek codecs offset whence).1, (self.seek codecs offset whence).2)
  | .tell => (some (self.seek codecs 0 1).1, (self.seek codecs 0 1).2)
  | .flush => (some (if self.inner.isSome then .ok .none else .error fileIsClosed), self)
  | .close => (some (self.finish defaults.commit).1, (self.finish defaults.commit).2)
  | .discard => (some (self.finish defaults.discard).1, (self.finish defaults.discard).2)
  | .closed => (some (.ok (.bool self.inner.isNone)), self)
  | .readable => (some (.ok (.bool (self.inner.isSome && self.mode = .Read))), self)
  | .writable => (some (.ok (.bool (self.inner.isSome &&
      (self.mode = .Write || self.mode = .Append || self.mode = .Exclusive)))), self)
  | .seekable => (some (.ok (.bool self.inner.isSome)), self)
  | .size =>
    (some ((self.inner.map fun file => .ok (.size file.size)).getD (.error fileIsClosed)), self)
  | .exit exception =>
    let action := if exception then defaults.discard else defaults.commit
    (some ((self.finish action).1.map fun _ => .bool false), (self.finish action).2)

end

end PyDbFile

/-! ### A plain file of bytes -/

/-- The bytes of a path, the position in them, and whether the file is open. -/
structure BytesFile where
  data : List Byte
  pos : Nat
  isOpen : Bool
  deriving Repr, DecidableEq

namespace BytesFile

/- What a seek is relative to. -/
def base (whence : UInt8) (self : BytesFile) : Option Nat :=
  if whence = 0 then some 0
  else if whence = 1 then some self.pos
  else if whence = 2 then some self.data.length
  else none

def target (offset : Int) (whence : UInt8) (self : BytesFile) : Option Nat :=
  (self.base whence).bind fun base => Cursor.checkedAddSigned base offset

def seek (offset : Int) (whence : UInt8) (self : BytesFile) :
    Except PyErrClass PyValue × BytesFile :=
  match self.target offset whence with
  | none => (.error .ValueError, self)
  | some n => (.ok (.int n), { self with pos := n })

def read (size : Int) (self : BytesFile) : Except PyErrClass PyValue × BytesFile :=
  let rest := self.data.drop self.pos
  let data := if size < 0 then rest else rest.take size.toNat
  (.ok (.bytes data), { self with pos := self.pos + data.length })

def finish (result : PyValue) (action : Except PyErr Unit) (self : BytesFile) :
    Except PyErrClass PyValue × BytesFile :=
  match action with
  | .error err => (.error err.cls, self)
  | .ok () => (.ok result, { self with isOpen := false })

def call (defaults : Defaults) (self : BytesFile) (c : PyCall) :
    Except PyErrClass PyValue × BytesFile :=
  if self.isOpen then
    match c with
    | .read size => self.read size.toInt
    | .write _ => (.error .OSError, self)
    | .seek offset whence => self.seek offset.toInt whence
    | .tell => (.ok (.int self.pos), self)
    | .flush => (.ok .none, self)
    | .close => self.finish .none defaults.commit
    | .discard => self.finish .none defaults.discard
    | .closed => (.ok (.bool false), self)
    | .readable => (.ok (.bool true), self)
    | .writable => (.ok (.bool false), self)
    | .seekable => (.ok (.bool true), self)
    | .size => (.ok (.size (some self.data.length)), self)
    | .exit exception =>
      self.finish (.bool false) (if exception then defaults.discard else defaults.commit)
  else
    match c with
    | .closed => (.ok (.bool true), self)
    | .readable | .writable | .seekable | .exit _ => (.ok (.bool false), self)
    | .close | .discard => (.ok .none, self)
    | _ => (.error .ValueError, self)

end BytesFile

/-- An answer of the file object for the one of a plain file: the same, with a message to an
exception, and the size of a file that is not read to its end may be unknown. -/
def Agrees (answer : MethodAnswer) (expected : Except PyErrClass PyValue) : Prop :=
  ∃ result, answer = some result ∧ (result.mapError PyErr.cls = expected ∨
    (result = .ok (.size none) ∧ ∃ n, expected = .ok (.size (some n))))

section
variable {Writer Schema Batch : Type} (codecs : Codecs Writer Schema Batch)

/-! ### Reads and seeks of the file below -/

/- What is left of `data` before the file; a position past the end stays where it is. -/
def LeftOf (data : List Byte) (last : Nat) (file : FsFile Writer Schema Batch)
    (rest : List Byte) : Prop :=
  ∃ cursor, AnswersAs codecs file cursor ∧ cursor.inner = data ∧ rest = data.drop cursor.pos ∧
    cursor.pos + rest.length = last

theorem FsFile.read_leaves (data : List Byte) (last : Nat) :
    Reading.Serves (FsFile.read codecs) (LeftOf codecs data last) := by
  intro n file rest h
  obtain ⟨cursor, hcursor, hinner, hrest, hlast⟩ := h
  obtain ⟨next, hread, hnext⟩ := FsFile.read_answers codecs n file cursor hcursor
  have hdata : (cursor.read n).1 = rest.take n := by rw [Cursor.read_eq, hinner, hrest]
  have hpos : (cursor.read n).2.pos = cursor.pos + (cursor.read n).1.length := rfl
  have htotal := hlast
  have hlength := congrArg List.length hrest
  rw [List.length_drop] at hlength
  refine ⟨n, next, fun hn _ => hn, Nat.le_refl n, by rw [hread, hdata], (cursor.read n).2, hnext,
    hinner, ?_, ?_⟩
  · rw [hpos, hdata, hrest, List.drop_drop, List.length_take, List.length_drop]
    by_cases hlong : cursor.pos + n ≤ data.length
    · congr 1
      omega
    · rw [List.drop_of_length_le (by omega), List.drop_of_length_le (by omega)]
  · rw [hpos, hdata, List.length_take, List.length_drop]
    omega

theorem FsFile.drain_answers (sizes : Nat → ℕ+) (fuel : Nat) (file : FsFile Writer Schema Batch)
    (cursor : Cursor) (h : AnswersAs codecs file cursor) (hfuel : cursor.inner.length < fuel) :
    ∃ next, Reading.drain (FsFile.read codecs) sizes fuel 0 file =
        some (.ok (cursor.inner.drop cursor.pos), next) ∧
      AnswersAs codecs next
        { cursor with pos := cursor.pos + (cursor.inner.drop cursor.pos).length } := by
  obtain ⟨next, hdrain, last, hlast, hinner, _, hpos⟩ :=
    Reading.drain_serves (FsFile.read_leaves codecs cursor.inner _) sizes fuel 0 file _
      ⟨cursor, h, rfl, rfl, rfl⟩ (by rw [List.length_drop]; omega)
  refine ⟨next, hdrain, ?_⟩
  rw [List.length_nil, Nat.add_zero] at hpos
  have hsame :
      last = { cursor with pos := cursor.pos + (cursor.inner.drop cursor.pos).length } := by
    obtain ⟨inner, pos, _⟩ := last
    dsimp only at hinner hpos
    subst hinner hpos
    rfl
  exact hsame ▸ hlast

/- Where a seek of the cursor goes. -/
def cursorTarget (cursor : Cursor) : SeekFrom → Option Nat
  | .Start position => some position.toNat
  | .Current offset => Cursor.checkedAddSigned cursor.pos offset.toInt
  | .End offset => Cursor.checkedAddSigned cursor.inner.length offset.toInt

theorem cursor_seek_eq (pos : SeekFrom) (cursor : Cursor) :
    cursor.seek pos = match cursorTarget cursor pos with
      | some n => (.ok n, { cursor with pos := n })
      | none => (.error Cursor.invalidSeek, cursor) := by
  cases pos <;> rfl

theorem FsFile.seek_answers (pos : SeekFrom) (file : FsFile Writer Schema Batch)
    (cursor : Cursor) (h : AnswersAs codecs file cursor) :
    (∃ n next, cursorTarget cursor pos = some n ∧ file.seek codecs pos = (.ok n, next) ∧
      AnswersAs codecs next { cursor with pos := n }) ∨
    ∃ err next, cursorTarget cursor pos = none ∧ file.seek codecs pos = (.error err, next) ∧
      err.kind = .InvalidInput ∧ AnswersAs codecs next cursor := by
  have hseek := cursor_seek_eq pos cursor
  cases file with
  | db file =>
    have hcursor : file.cursor = cursor := h
    subst hcursor
    cases htarget : cursorTarget file.cursor pos with
    | some n =>
      rw [htarget] at hseek
      refine .inl ⟨n, .db { file with cursor := { file.cursor with pos := n } }, rfl, ?_, rfl⟩
      simp only [FsFile.seek, hseek]
    | none =>
      rw [htarget] at hseek
      refine .inr ⟨Cursor.invalidSeek, .db file, rfl, ?_, rfl, rfl⟩
      simp only [FsFile.seek, hseek]
  | encoded file =>
    rcases seek_refines codecs pos file cursor h with
      ⟨n, next, hfile, hcursor, hnext⟩ | ⟨err, err', next, hfile, hcursor, hkind, hnext⟩
    · rw [hcursor] at hseek
      cases htarget : cursorTarget cursor pos with
      | some m =>
        rw [htarget] at hseek
        have hsame := Except.ok.inj (Prod.mk.inj hseek).1
        subst hsame
        exact .inl ⟨n, .encoded next, rfl, by simp only [FsFile.seek, hfile], hnext⟩
      | none =>
        rw [htarget] at hseek
        cases (Prod.mk.inj hseek).1
    · rw [hcursor] at hseek
      cases htarget : cursorTarget cursor pos with
      | some m =>
        rw [htarget] at hseek
        cases (Prod.mk.inj hseek).1
      | none =>
        rw [htarget] at hseek
        refine .inr ⟨err, .encoded next, rfl, by simp only [FsFile.seek, hfile], ?_, hnext⟩
        rw [hkind, Except.error.inj (Prod.mk.inj hseek).1]
        rfl

theorem FsFile.size_answers (file : FsFile Writer Schema Batch) (cursor : Cursor)
    (h : AnswersAs codecs file cursor) :
    file.size = none ∨ file.size = some cursor.inner.length := by
  cases file with
  | db file =>
    have hcursor : file.cursor = cursor := h
    exact .inr (by rw [FsFile.size, hcursor])
  | encoded file =>
    have hsize := size_of_fills codecs cursor.inner file h.1
    cases hended : file.reader.ended with
    | true => exact .inr (by rw [FsFile.size, hsize, hended, if_pos rfl])
    | false => exact .inl (by rw [FsFile.size, hsize, hended, if_neg Bool.false_ne_true])

end

end FsspecDb.Fs
