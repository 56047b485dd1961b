import FsspecDb.Fs.Metadata
import FsspecDb.Insert.Engine

/-!
# `Database::insert` of the native backends (sqlite.rs, mysql.rs, postgres.rs)

All three check the table, open a transaction, empty the table in truncate mode, write
one batch after the other and commit. They differ in how a batch is written.
-/

namespace FsspecDb.Insert
open Text Fs

variable {V Arg : Type}

/-- The reader passed to `insert`: batches, or the message of a decode error. -/
abbrev BatchReader := List (Except Str RecordBatch)

/-- What a backend does in its own way. -/
structure Backend (V Arg : Type) where
  dialect : Dialect
  /-- The text before the table in the statement that empties it. -/
  truncateVerb : Str
  /-- The names that introspection has to quote. -/
  checkNames : Str → Str → Except DbError Unit
  write : Engine V Arg → Session V → Str → Str → RecordBatch → Except DbError Nat × Session V

def batchColumns (batch : RecordBatch) : List Str := batch.schema.map Field.name

/-- `relation_info_async` and `table_columns_async`, for the names of the columns. -/
def tableColumns (backend : Backend V Arg) (engine : Engine V Arg) (session : Session V)
    (schema relation : Str) : Except DbError (List Str) × Session V :=
  match backend.checkNames schema relation with
  | .error err => (.error err, session)
  | .ok () =>
    match engine.fails session.commands with
    | some err => (.error err, { session with commands := session.commands + 1 })
    | none =>
      let session := { session with commands := session.commands + 1 }
      match session.committed schema relation with
      | none => (.error (.NotFound
          ("relation not found: ".toList ++ schema ++ '.' :: relation)), session)
      | some table => (.ok table.columns, session)

/-- `DELETE FROM` or `TRUNCATE TABLE` in truncate mode. -/
def truncateTable (backend : Backend V Arg) (engine : Engine V Arg) (session : Session V)
    (schema relation : Str) (mode : InsertMode) : Except DbError Unit × Session V :=
  match mode with
  | .Append => (.ok (), session)
  | .Truncate =>
    match Sql.qualifiedName backend.dialect schema relation with
    | .error err => (.error err, session)
    | .ok table =>
      let (result, session) := engine.execute session (backend.truncateVerb ++ table) []
      (result.map fun _ => (), session)

/-- The first field that the table has no column for, ASCII case apart. -/
def unknownColumn (validColumns columns : List Str) : Option Str :=
  columns.find? fun column =>
    !(validColumns.map toAsciiLowercase).contains (toAsciiLowercase column)

/-- The loop over the batches; `inserted` is the count so far. -/
def insertBatches (backend : Backend V Arg) (engine : Engine V Arg) (schema relation : Str)
    (validColumns : List Str) :
    BatchReader → Session V → Nat → Except DbError Nat × Session V
  | [], session, inserted => (.ok inserted, session)
  | .error msg :: _, session, _ => (.error (.Arrow msg), session)
  | .ok batch :: batches, session, inserted =>
    if batch.numRows = 0 then
      insertBatches backend engine schema relation validColumns batches session inserted
    else
      match unknownColumn validColumns (batchColumns batch) with
      | some column => (.error (.InvalidArgument ("column not found in ".toList ++ schema ++
          '.' :: relation ++ ": ".toList ++ column)), session)
      | none =>
        match backend.write engine session schema relation batch with
        | (.error err, session) => (.error err, session)
        | (.ok affected, session) =>
          insertBatches backend engine schema relation validColumns batches session
            (inserted + affected)

/-- `insert`: the result, and the tables that are committed when it returns. -/
def insertWith (backend : Backend V Arg) (engine : Engine V Arg) (tables : Tables V)
    (schema relation : Str) (batches : BatchReader) (mode : InsertMode) :
    Except DbError Nat × Tables V :=
  match tableColumns backend engine ⟨tables, tables, 0⟩ schema relation with
  | (.error err, session) => (.error err, session.committed)
  | (.ok validColumns, session) =>
    match engine.begin session with
    | (.error err, session) => (.error err, session.committed)
    | (.ok (), session) =>
      match truncateTable backend engine session schema relation mode with
      | (.error err, session) => (.error err, session.committed)
      | (.ok (), session) =>
        match insertBatches backend engine schema relation validColumns batches session 0 with
        | (.error err, session) => (.error err, session.committed)
        | (.ok inserted, session) =>
          match engine.commit session with
          | (.error err, session) => (.error err, session.committed)
          | (.ok (), session) => (.ok inserted, session.committed)

/-! ### The three backends -/

def bindRows (bind : ArrowArray → Nat → Except DbError Argument) (batch : RecordBatch) :
    Except DbError (List Argument) :=
  ((List.range batch.numRows).mapM fun row =>
    batch.columns.mapM fun column => bind column row).map List.flatten

/-- One INSERT with a placeholder for each cell. -/
def insertStatement (dialect : Dialect) (bind : ArrowArray → Nat → Except DbError Argument)
    (engine : Engine V Argument) (session : Session V) (schema relation : Str)
    (batch : RecordBatch) : Except DbError Nat × Session V :=
  match Sql.insertSql dialect schema relation (batchColumns batch) batch.numRows with
  | .error err => (.error err, session)
  | .ok sql =>
    match bindRows bind batch with
    | .error err => (.error err, session)
    | .ok args => engine.execute session sql args

/-- One COPY with the batch as CSV. -/
def copyBatch (core : Postgres.CsvCore) (floats : FloatText)
    (engine : Engine V (Option (List Byte))) (session : Session V) (schema relation : Str)
    (batch : RecordBatch) : Except DbError Nat × Session V :=
  match Postgres.copyInSql schema relation (batchColumns batch) with
  | .error err => (.error err, session)
  | .ok sql =>
    match Postgres.batchToCopyCsv core floats batch with
    | .error err => (.error err, session)
    | .ok data => copyIn engine session sql data

def sqliteBackend : Backend V Argument where
  dialect := .Sqlite
  truncateVerb := "DELETE FROM ".toList
  checkNames schema relation := (Sql.qualifiedName .Sqlite schema relation).map fun _ => ()
  write := insertStatement .Sqlite Sqlite.bindArrowValue

def mySqlBackend : Backend V Argument where
  dialect := .MySql
  truncateVerb := "DELETE FROM ".toList
  checkNames _ _ := .ok ()
  write := insertStatement .MySql MySql.bindArrowValue

def postgresBackend (core : Postgres.CsvCore) (floats : FloatText) :
    Backend V (Option (List Byte)) where
  dialect := .Postgres
  truncateVerb := "TRUNCATE TABLE ".toList
  checkNames _ _ := .ok ()
  write := copyBatch core floats

/-- Names in SQLite are the same up to ASCII case. -/
def sqliteRules : Rules := ⟨'"', toAsciiLowercase, true, false⟩

/-- In MySQL up to case, where `fold` is its case folding; no column is listed twice. -/
def mySqlRules (fold : Str → Str) : Rules := ⟨'\x60', fold, false, false⟩

/-- In PostgreSQL a quoted name stands for itself; no column is listed twice. -/
def postgresRules : Rules := ⟨'"', id, false, true⟩

def SqliteDatabase.insert (engine : Engine V Argument) := insertWith sqliteBackend engine

def MySqlDatabase.insert (engine : Engine V Argument) := insertWith mySqlBackend engine

def PostgresDatabase.insert (core : Postgres.CsvCore) (floats : FloatText)
    (engine : Engine V (Option (List Byte))) := insertWith (postgresBackend core floats) engine

end FsspecDb.Insert
