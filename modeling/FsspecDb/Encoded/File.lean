import FsspecDb.Path
import FsspecDb.Lib.Mealy

/-!
# EncodedDbFile (stream.rs)

A readable file whose bytes are the encoding of a stream of record batches. It
is filled on demand: a read or a seek takes batches from the reader and hands
them to the encoder until enough bytes were emitted or the reader has ended.
-/

namespace FsspecDb.Encoded

def USIZE_MAX : Nat := 2 ^ 64 - 1

inductive InterchangeFormat where
  | Parquet
  | Arrow
  | Csv
  | JsonLines
  deriving Repr, DecidableEq

/-- The codec writers of the registry. A writer only appends to its sink: every
operation gives the bytes appended, also where it fails, and `finish` uses the
writer up. -/
structure Codecs (Writer Schema Batch : Type) where
  startOwnedWriter : InterchangeFormat → Schema → Except DbError (Writer × List Byte)
  writeBatch : Writer → Batch → List Byte × Writer × Option DbError
  finish : Writer → List Byte × Option DbError

/-- A record batch reader: what it still yields (an Arrow error by its text), and
whether it has answered `None`. -/
structure Reader (Schema Batch : Type) where
  schema : Schema
  items : List (Except Str Batch)
  ended : Bool

structure EncodedDbFile (Writer Schema Batch : Type) where
  reader : Reader Schema Batch
  writer : Option Writer
  sink : List Byte
  emitted : List Byte
  position : Nat
  info : FileInfo
  eof : Bool

inductive SeekFrom where
  | Start (position : UInt64)
  | Current (offset : Int64)
  | End (offset : Int64)
  deriving Repr, DecidableEq

variable {Writer Schema Batch : Type}

def dbErrorToIo (err : DbError) : IoError := ⟨.InvalidData, err.display⟩

def formatEncoder (codecs : Codecs Writer Schema Batch) (format : DataFormat) (schema : Schema) :
    Except DbError (Writer × List Byte) :=
  match format with
  | .Parquet => codecs.startOwnedWriter .Parquet schema
  | .Arrow => codecs.startOwnedWriter .Arrow schema
  | .Csv => codecs.startOwnedWriter .Csv schema
  | .Jsonl => codecs.startOwnedWriter .JsonLines schema
  | .Sql => .error (.NotSupported "SQL DDL encoding is handled by DatabaseFs".toList)

namespace EncodedDbFile

/-- `EncodedDbFile::new`, with what starting the writer emitted drained. -/
def new (codecs : Codecs Writer Schema Batch) (reader : Reader Schema Batch)
    (format : DataFormat) (info : FileInfo) :
    Except DbError (EncodedDbFile Writer Schema Batch) :=
  (formatEncoder codecs format reader.schema).map fun started =>
    ⟨reader, some started.1, [], started.2, 0, info, false⟩

def drainSink (file : EncodedDbFile Writer Schema Batch) : EncodedDbFile Writer Schema Batch :=
  { file with emitted := file.emitted ++ file.sink, sink := [] }

/-- `FormatEncoder::write_batch`. The `unwrap` panics on a writer that is gone. -/
def writeBatch (codecs : Codecs Writer Schema Batch) (batch : Batch)
    (file : EncodedDbFile Writer Schema Batch) :
    Except IoError Unit × EncodedDbFile Writer Schema Batch :=
  match file.writer with
  | none => (.error ⟨.Other, "called `Option::unwrap()` on a `None` value".toList⟩, file)
  | some writer =>
    let (bytes, writer, err) := codecs.writeBatch writer batch
    let file := { file with writer := some writer, sink := file.sink ++ bytes }
    match err with
    | some err => (.error (dbErrorToIo err), file)
    | none => (.ok (), file)

/-- `FormatEncoder::finish`: nothing is left to do once the writer was taken. -/
def finish (codecs : Codecs Writer Schema Batch) (file : EncodedDbFile Writer Schema Batch) :
    Except IoError Unit × EncodedDbFile Writer Schema Batch :=
  match file.writer with
  | none => (.ok (), file)
  | some writer =>
    let (bytes, err) := codecs.finish writer
    let file := { file with writer := none, sink := file.sink ++ bytes }
    match err with
    | some err => (.error (dbErrorToIo err), file)
    | none => (.ok (), file)

/-- One pass through the loop of `fill_until`. -/
def fillStep (codecs : Codecs Writer Schema Batch) (file : EncodedDbFile Writer Schema Batch) :
    Except IoError Unit × EncodedDbFile Writer Schema Batch :=
  match file.reader.items with
  | .ok batch :: rest =>
    match writeBatch codecs batch { file with reader := { file.reader with items := rest } } with
    | (.error err, file) => (.error err, file)
    | (.ok (), file) => (.ok (), drainSink file)
  | .error err :: rest =>
    (.error ⟨.InvalidData, err⟩, { file with reader := { file.reader with items := rest } })
  | [] =>
    match finish codecs { file with reader := { file.reader with ended := true } } with
    | (.error err, file) => (.error err, file)
    | (.ok (), file) => (.ok (), drainSink { file with eof := true })

def wants (file : EncodedDbFile Writer Schema Batch) (target : Option Nat) : Bool :=
  !file.eof && target.all fun target => decide (file.emitted.length < target)

/- The loop: each pass takes one item of the reader, and the pass that gets `None`
is the last. -/
def fillLoop (codecs : Codecs Writer Schema Batch) (target : Option Nat) :
    List (Except Str Batch) → EncodedDbFile Writer Schema Batch →
    Except IoError Unit × EncodedDbFile Writer Schema Batch
  | [], file => if file.wants target then fillStep codecs file else (.ok (), file)
  | _ :: rest, file =>
    if file.wants target then
      match fillStep codecs file with
      | (.error err, next) => (.error err, next)
      | (.ok (), next) => fillLoop codecs target rest next
    else (.ok (), file)

def fillUntil (codecs : Codecs Writer Schema Batch) (target : Option Nat)
    (file : EncodedDbFile Writer Schema Batch) :
    Except IoError Unit × EncodedDbFile Writer Schema Batch :=
  fillLoop codecs target file.reader.items file

/-- `Read::read` into a buffer of `n` bytes: the bytes written to it. -/
def read (codecs : Codecs Writer Schema Batch) (n : Nat)
    (file : EncodedDbFile Writer Schema Batch) :
    Except IoError (List Byte) × EncodedDbFile Writer Schema Batch :=
  if n = 0 then (.ok [], file)
  else
    let start := file.position
    match fillUntil codecs (some (min (start + n) USIZE_MAX)) file with
    | (.error err, file) => (.error err, file)
    | (.ok (), file) =>
      if file.emitted.length ≤ start then (.ok [], file)
      else
        let count := min n (file.emitted.length - start)
        (.ok ((file.emitted.drop start).take count),
          { file with position := file.position + count })

end EncodedDbFile

def offsetPosition (position : Nat) (offset : Int) : Except IoError Nat :=
  if 0 ≤ offset then
    if position + offset.natAbs < 2 ^ 64 then .ok (position + offset.natAbs)
    else .error ⟨.InvalidInput, "seek position overflow".toList⟩
  else
    if offset.natAbs ≤ position then .ok (position - offset.natAbs)
    else .error ⟨.InvalidInput, "negative seek position".toList⟩

namespace EncodedDbFile

/- The end of `seek`, with the new position found. -/
def seekTo (codecs : Codecs Writer Schema Batch) (newPosition : Nat)
    (file : EncodedDbFile Writer Schema Batch) :
    Except IoError Nat × EncodedDbFile Writer Schema Batch :=
  match fillUntil codecs (some newPosition) file with
  | (.error err, file) => (.error err, file)
  | (.ok (), file) => (.ok newPosition, { file with position := newPosition })

def seek (codecs : Codecs Writer Schema Batch) (pos : SeekFrom)
    (file : EncodedDbFile Writer Schema Batch) :
    Except IoError Nat × EncodedDbFile Writer Schema Batch :=
  match pos with
  | .Start position => seekTo codecs position.toNat file
  | .Current offset =>
    match offsetPosition file.position offset.toInt with
    | .error err => (.error err, file)
    | .ok newPosition => seekTo codecs newPosition file
  | .End offset =>
    match fillUntil codecs none file with
    | (.error err, file) => (.error err, file)
    | (.ok (), file) =>
      match offsetPosition file.emitted.length offset.toInt with
      | .error err => (.error err, file)
      | .ok newPosition => seekTo codecs newPosition file

def fileInfo (file : EncodedDbFile Writer Schema Batch) : FileInfo :=
  if file.eof then
    { file.info with size := file.emitted.length }.insert "size_known".toList "true".toList
  else file.info

def size (file : EncodedDbFile Writer Schema Batch) : Option Nat :=
  if file.eof then some file.emitted.length else none

end EncodedDbFile

inductive Call where
  | read (n : Nat)
  | seek (pos : SeekFrom)
  deriving Repr, DecidableEq

/-- What a call returns, an error by its kind. -/
inductive Answer where
  | bytes (data : List Byte)
  | position (position : Nat)
  | failed (kind : ErrorKind)
  deriving Repr, DecidableEq

def call (codecs : Codecs Writer Schema Batch) (file : EncodedDbFile Writer Schema Batch) :
    Call → Answer × EncodedDbFile Writer Schema Batch
  | .read n =>
    match file.read codecs n with
    | (.ok data, next) => (.bytes data, next)
    | (.error err, next) => (.failed err.kind, next)
  | .seek pos =>
    match file.seek codecs pos with
    | (.ok position, next) => (.position position, next)
    | (.error err, next) => (.failed err.kind, next)

end FsspecDb.Encoded
