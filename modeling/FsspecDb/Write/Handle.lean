import FsspecDb.Error
import FsspecDb.Lib.Transition

/-!
# Write handles (python.py, spec.py, database.rs)

What `open` returns in a write mode: `_WriteBuffer`, `DeferredDatabaseFile` or `RustDbFile`,
and for a text mode an `io.TextIOWrapper` around one of them.
-/

namespace FsspecDb.Write
open Transition

/-- A call of the commit callback: the bytes, and whether it returned without an exception. -/
structure Call where
  data : List Byte
  returned : Bool
  deriving Repr, DecidableEq

/-! ### The three classes -/

/-- `_WriteBuffer`, an `io.BytesIO`. -/
structure WriteBuffer where
  value : List Byte
  closed : Bool
  commitEnabled : Bool
  deriving Repr, DecidableEq

namespace WriteBuffer

/- An exception of the callback leaves the buffer open. -/
def close (returns : Bool) (file : WriteBuffer) : WriteBuffer × Option Call :=
  if !file.closed && file.commitEnabled then
    (if returns then { file with closed := true } else file, some ⟨file.value, returns⟩)
  else ({ file with closed := true }, none)

def exit (exception returns : Bool) (file : WriteBuffer) : WriteBuffer × Option Call :=
  (if exception then { file with commitEnabled := false } else file).close returns

/-- `__del__`. -/
def del (file : WriteBuffer) : WriteBuffer := { file with commitEnabled := false, closed := true }

end WriteBuffer

structure DeferredDatabaseFile where
  value : List Byte
  closed : Bool
  completed : Bool
  deriving Repr, DecidableEq

namespace DeferredDatabaseFile

def close (file : DeferredDatabaseFile) : DeferredDatabaseFile :=
  if file.completed then { file with closed := true } else file

def commit (returns : Bool) (file : DeferredDatabaseFile) : DeferredDatabaseFile × Option Call :=
  if !file.completed then
    (if returns then { file with completed := true, closed := true } else file,
      some ⟨file.value, returns⟩)
  else (file, none)

def discard (file : DeferredDatabaseFile) : DeferredDatabaseFile :=
  if !file.completed then { file with completed := true, closed := true } else file

end DeferredDatabaseFile

/-- `fsspec_rs::BufferedFile` in a write mode. A commit uploads the buffered bytes once;
`retries` says whether it can be tried again after an upload has failed. -/
structure BufferedFile where
  buffered : List Byte
  retries : Bool
  spent : Bool
  deriving Repr, DecidableEq

def BufferedFile.commit (returns : Bool) (file : BufferedFile) :
    Bool × BufferedFile × Option Call :=
  if file.spent then (true, file, none)
  else (returns, { file with spent := returns || !file.retries }, some ⟨file.buffered, returns⟩)

/-- `RustDbFile`; there is no inner file once it is closed. -/
structure PyDbFile where
  inner : Option BufferedFile
  deriving Repr, DecidableEq

namespace PyDbFile

def close (returns : Bool) (file : PyDbFile) : PyDbFile × Option Call :=
  match file.inner with
  | none => (file, none)
  | some inner =>
    match inner.commit returns with
    | (true, _, call) => (⟨none⟩, call)
    | (false, inner, call) => (⟨some inner⟩, call)

def discard (_ : PyDbFile) : PyDbFile := ⟨none⟩

def exit (exception returns : Bool) (file : PyDbFile) : PyDbFile × Option Call :=
  if exception then (file.discard, none) else file.close returns

end PyDbFile

/-! ### A file of one of the classes -/

inductive File where
  | writeBuffer (file : WriteBuffer)
  | deferred (file : DeferredDatabaseFile)
  | rust (file : PyDbFile)
  deriving Repr, DecidableEq

namespace File

def isDeferred : File → Bool
  | .deferred _ => true
  | _ => false

def closed : File → Bool
  | .writeBuffer file => file.closed
  | .deferred file => file.closed
  | .rust file => file.inner.isNone

/-- The bytes that a commit would pass on. -/
def value : File → List Byte
  | .writeBuffer file => file.value
  | .deferred file => file.value
  | .rust file => (file.inner.map BufferedFile.buffered).getD []

/- A write to a closed file raises an exception. -/
def write (data : List Byte) (file : File) : File :=
  if file.closed then file
  else match file with
    | .writeBuffer file => .writeBuffer { file with value := file.value ++ data }
    | .deferred file => .deferred { file with value := file.value ++ data }
    | .rust file =>
      .rust ⟨file.inner.map fun inner => { inner with buffered := inner.buffered ++ data }⟩

def close (returns : Bool) : File → File × Option Call
  | .writeBuffer file => ((file.close returns).1 |> .writeBuffer, (file.close returns).2)
  | .deferred file => (.deferred file.close, none)
  | .rust file => ((file.close returns).1 |> .rust, (file.close returns).2)

/- `DeferredDatabaseFile` has the exit of `io.IOBase`, which closes. -/
def exit (exception returns : Bool) : File → File × Option Call
  | .writeBuffer file =>
    ((file.exit exception returns).1 |> .writeBuffer, (file.exit exception returns).2)
  | .deferred file => (.deferred file.close, none)
  | .rust file => ((file.exit exception returns).1 |> .rust, (file.exit exception returns).2)

/- Only the deferred file has the method. -/
def commit (returns : Bool) : File → File × Option Call
  | .deferred file => ((file.commit returns).1 |> .deferred, (file.commit returns).2)
  | file => (file, none)

def canDiscard : File → Bool
  | .writeBuffer _ => false
  | _ => true

def discard : File → File
  | .writeBuffer file => .writeBuffer file
  | .deferred file => .deferred file.discard
  | .rust file => .rust file.discard

/-- What is left of the file when it is garbage collected. -/
def collect : File → File
  | .writeBuffer file => .writeBuffer file.del
  | .deferred file => .deferred file.close
  | .rust _ => .rust ⟨none⟩

end File

/-! ### The handle -/

/-- The file, and for a text mode the bytes that the wrapper has not handed to it yet. -/
structure Handle where
  file : File
  pending : Option (List Byte)
  deriving Repr, DecidableEq

namespace Handle

def closed (handle : Handle) : Bool := handle.file.closed

/- The wrapper hands on some of what was written: `moved` bytes. -/
def write (data : List Byte) (moved : Nat) (handle : Handle) : Handle :=
  if handle.closed then handle
  else match handle.pending with
    | none => { handle with file := handle.file.write data }
    | some bytes =>
      ⟨handle.file.write ((bytes ++ data).take moved), some ((bytes ++ data).drop moved)⟩

def flush (handle : Handle) : Handle :=
  if handle.closed then handle
  else ⟨handle.file.write (handle.pending.getD []), handle.pending.map fun _ => []⟩

/- The wrapper flushes and closes its buffer, unless that is closed. -/
def close (returns : Bool) (handle : Handle) : Handle × Option Call :=
  if handle.pending.isSome && handle.closed then (handle, none)
  else
    let handle := if handle.pending.isSome then handle.flush else handle
    ({ handle with file := (handle.file.close returns).1 }, (handle.file.close returns).2)

/- The wrapper has the exit of `io.IOBase`: whether there was an exception is not looked at. -/
def exit (exception returns : Bool) (handle : Handle) : Handle × Option Call :=
  if handle.pending.isSome then handle.close returns
  else ({ handle with file := (handle.file.exit exception returns).1 },
    (handle.file.exit exception returns).2)

/- The wrapper's finalizer closes it. -/
def collect (returns : Bool) (handle : Handle) : Handle × Option Call :=
  if handle.pending.isSome then handle.close returns
  else ({ handle with file := handle.file.collect }, none)

end Handle

/-! ### Runs -/

/-- A call of the callback, and whether it came after an exceptional exit or a discard. -/
structure Record where
  call : Call
  left : Bool
  discarded : Bool
  deriving Repr, DecidableEq

/-- The handle, whether fsspec's transaction has its file and whether it is collected; what was
written to it and what became of it, and the calls of the callback. -/
structure State where
  handle : Handle
  inTransaction : Bool
  collected : Bool
  written : List Byte
  released : Bool
  left : Bool
  discarded : Bool
  calls : List Record
  deriving Repr, DecidableEq

inductive Action where
  | write (data : List Byte) (moved : Nat)
  | flush
  | close (returns : Bool)
  | commit (returns : Bool)
  | discard
  | exit (exception returns : Bool)
  | transactionEnd (failed returns : Bool)
  | collect (returns : Bool)
  deriving Repr, DecidableEq

/-- `AbstractFileSystem.open` with the `_open` of the two filesystems: the file by whether the
filesystem is the direct Python one and whether the write is deferred, and the text wrapper. -/
def openHandle (direct deferred text retries : Bool) : State where
  handle :=
    ⟨if deferred then .deferred ⟨[], false, false⟩
      else if direct then .writeBuffer ⟨[], false, true⟩
      else .rust ⟨some ⟨[], retries, false⟩⟩,
      if text then some [] else none⟩
  inTransaction := deferred
  collected := false
  written := []
  released := false
  left := false
  discarded := false
  calls := []

namespace State

/-- The state after a method of the handle, with the call it made. -/
def after (s : State) (result : Handle × Option Call) : State :=
  { s with
    handle := result.1
    calls := s.calls ++ (result.2.map fun call => ⟨call, s.left, s.discarded⟩).toList }

/- A method that returned: it made no call, or the callback returned. -/
def returned (call : Option Call) : Bool := call.all Call.returned

def step (s : State) (action : Action) : State :=
  match action with
  | .transactionEnd failed returns =>
    if s.inTransaction then
      let s := { s with inTransaction := false, discarded := s.discarded || failed }
      if failed then { s with handle := { s.handle with file := s.handle.file.discard } }
      else s.after ({ s.handle with file := (s.handle.file.commit returns).1 },
        (s.handle.file.commit returns).2)
    else s
  | _ =>
    if s.collected then s
    else match action with
      | .write data moved =>
        if s.handle.closed then s
        else { s with handle := s.handle.write data moved, written := s.written ++ data }
      | .flush => { s with handle := s.handle.flush }
      | .close returns =>
        let result := s.handle.close returns
        { s.after result with released := s.released || returned result.2 }
      | .commit returns =>
        if s.handle.pending.isSome then s
        else s.after ({ s.handle with file := (s.handle.file.commit returns).1 },
          (s.handle.file.commit returns).2)
      | .discard =>
        if s.handle.pending.isSome || !s.handle.file.canDiscard then s
        else { s with
          handle := { s.handle with file := s.handle.file.discard }
          discarded := true }
      | .exit exception returns =>
        let s := { s with left := s.left || (exception && !s.released && !s.handle.closed) }
        let result := s.handle.exit exception returns
        { s.after result with released := s.released || (!exception && returned result.2) }
      | .collect returns => { s.after (s.handle.collect returns) with collected := true }
      | .transactionEnd _ _ => s

end State

/-- One event in the life of a handle. -/
abbrev Step : System State Action := fun s action t => t = s.step action

end FsspecDb.Write
