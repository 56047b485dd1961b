import FsspecDb.Encoded.Complete
import FsspecDb.Fs.Metadata
import FsspecDb.Sql.Options
import FsspecDb.Sql.Statements

/-!
# Opening a path for reading (fs.rs, file.rs)

`open_db` in read mode gives a file over finished bytes or a lazily encoded one.
Both answer reads and seeks as the cursor over their contents does.
-/

namespace FsspecDb.Fs
open Text Encoded

structure DbFile where
  cursor : Cursor
  info : FileInfo
  writable : Bool

def DbFile.readable (data : List Byte) (h : data.length < 2 ^ 63) (info : FileInfo) : DbFile :=
  ⟨Cursor.new data h, info, false⟩

/-- The `Box<dyn FsFile>` of a read. -/
inductive FsFile (Writer Schema Batch : Type) where
  | db (file : DbFile)
  | encoded (file : EncodedDbFile Writer Schema Batch)

/-- What opening needs beyond the metadata: the database's `query`, the SQL parser and
the codec writers. -/
structure Backend (σ Stream Writer Schema Batch : Type) where
  db : Database σ Stream
  query : σ → Str → Except DbError (Schema × List (Except Str Batch))
  sqlparser : Sql.SqlParser
  codecs : Codecs Writer Schema Batch

variable {σ Stream Writer Schema Batch : Type}

namespace FsFile

def read (codecs : Codecs Writer Schema Batch) :
    Reading.Read (FsFile Writer Schema Batch) IoError Byte
  | n, .db file => (.ok (file.cursor.read n).1, .db { file with cursor := (file.cursor.read n).2 })
  | n, .encoded file => ((file.read codecs n).1, .encoded (file.read codecs n).2)

def seek (codecs : Codecs Writer Schema Batch) (pos : SeekFrom) :
    FsFile Writer Schema Batch → Except IoError Nat × FsFile Writer Schema Batch
  | .db file => ((file.cursor.seek pos).1, .db { file with cursor := (file.cursor.seek pos).2 })
  | .encoded file => ((file.seek codecs pos).1, .encoded (file.seek codecs pos).2)

end FsFile

/- The line of a column in the DDL. -/
def ddlColumn (dialect : Dialect) (column : ColumnInfo) : Except DbError Str := do
  let name ← Sql.quoteIdentifier dialect column.name
  return "  ".toList ++ name ++ [' '] ++ column.dataType ++
    (if column.nullable then [] else " NOT NULL".toList) ++
    column.default.elim [] fun default => " DEFAULT ".toList ++ default

def ddlSql (db : Database σ Stream) (s : σ) (dialect : Dialect) (schema relation : Str)
    (relationInfo : RelationInfo) : Except DbError Str :=
  if relationInfo.kind = .View then db.viewDefinition s schema relation
  else do
    let columns ← db.listColumns s schema relation
    let lines ← columns.mapM (ddlColumn dialect)
    let schema ← Sql.quoteIdentifier dialect schema
    let relation ← Sql.quoteIdentifier dialect relation
    return "CREATE TABLE ".toList ++ schema ++ ['.'] ++ relation ++ " (\n".toList ++
      join ",\n".toList lines ++ "\n);".toList

/- A `Vec` holds at most `isize::MAX` bytes; a longer one panics where it is made. -/
def readableFile (data : List Byte) (info : FileInfo) :
    Except DbError (FsFile Writer Schema Batch) :=
  if h : data.length < 2 ^ 63 then .ok (.db (DbFile.readable data h info))
  else .error (.Other "capacity overflow".toList)

def openDb (backend : Backend σ Stream Writer Schema Batch) (s : σ) (path : Str) :
    Except DbError (FsFile Writer Schema Batch) := do
  let db := backend.db
  let parsed ← DbPath.parse path
  match parsed.kind with
  | .RelationData format =>
    let (schema, relation) ← requiredRelation parsed
    let relationInfo ← db.relationInfo s schema relation
    if format = .Sql then
      let ddl ← ddlSql db s db.dialect schema relation relationInfo
      let data := Utf8.encode ddl
      let info := { relationDataFile db.dialect schema relation relationInfo.kind format with
        size := data.length }
      readableFile data (info.insert "size_known".toList "true".toList)
    else
      let options ← Sql.selectOptionsFromQuery backend.sqlparser db.dialect parsed.query
      let sql ← Sql.selectSql db.dialect schema relation options
      let (batchSchema, items) ← backend.query s sql
      let info := relationDataFile db.dialect schema relation relationInfo.kind format
      let file ← EncodedDbFile.new backend.codecs ⟨batchSchema, items, false⟩ format info
      return .encoded file
  | .ViewDefinition =>
    let (schema, relation) ← requiredRelation parsed
    let definition ← db.viewDefinition s schema relation
    let data := Utf8.encode definition
    readableFile data (viewDefinitionFile schema relation data.length)
  | _ => .error (.IsADirectory ("path is not a readable database file: ".toList ++ path))

/-! ### A file as a cursor over its contents -/

def AnswersAs (codecs : Codecs Writer Schema Batch) (file : FsFile Writer Schema Batch)
    (cursor : Cursor) : Prop :=
  match file with
  | .db file => file.cursor = cursor
  | .encoded file => Represents codecs file cursor

theorem FsFile.read_answers (codecs : Codecs Writer Schema Batch) (n : Nat)
    (file : FsFile Writer Schema Batch) (cursor : Cursor) (h : AnswersAs codecs file cursor) :
    ∃ next, file.read codecs n = (.ok (cursor.read n).1, next) ∧
      AnswersAs codecs next (cursor.read n).2 := by
  cases file with
  | db file =>
    have hcursor : file.cursor = cursor := h
    subst hcursor
    exact ⟨_, rfl, rfl⟩
  | encoded file =>
    obtain ⟨next, hread, hnext⟩ := read_refines codecs n file cursor h
    exact ⟨.encoded next, by simp only [FsFile.read, hread], hnext⟩

theorem FsFile.seek_start (codecs : Codecs Writer Schema Batch) (position : UInt64)
    (file : FsFile Writer Schema Batch) (cursor : Cursor) (h : AnswersAs codecs file cursor) :
    ∃ next, file.seek codecs (.Start position) = (.ok position.toNat, next) ∧
      AnswersAs codecs next { cursor with pos := position.toNat } := by
  cases file with
  | db file =>
    have hcursor : file.cursor = cursor := h
    subst hcursor
    exact ⟨_, rfl, rfl⟩
  | encoded file =>
    obtain ⟨next, hseek, hnext⟩ := seekTo_refines codecs position.toNat file cursor h.1
      position.toNat_lt
    exact ⟨.encoded next, by simp only [FsFile.seek, EncodedDbFile.seek, hseek], hnext⟩

/- The bytes still before the file. -/
def StillToRead (codecs : Codecs Writer Schema Batch) (file : FsFile Writer Schema Batch)
    (rest : List Byte) : Prop :=
  ∃ cursor, AnswersAs codecs file cursor ∧ rest = cursor.inner.drop cursor.pos

theorem Cursor.read_eq (n : Nat) (cursor : Cursor) :
    (cursor.read n).1 = (cursor.inner.drop cursor.pos).take n := by
  rw [Cursor.read]
  dsimp only
  by_cases hpast : cursor.pos ≤ cursor.inner.length
  · rw [Nat.min_eq_left hpast]
  · rw [Nat.min_eq_right (by omega), List.drop_length, List.drop_of_length_le (by omega)]

theorem FsFile.read_serves (codecs : Codecs Writer Schema Batch) :
    Reading.Serves (FsFile.read codecs) (StillToRead codecs) := by
  intro n file rest h
  obtain ⟨cursor, hcursor, hrest⟩ := h
  obtain ⟨next, hread, hnext⟩ := FsFile.read_answers codecs n file cursor hcursor
  refine ⟨n, next, fun hn _ => hn, Nat.le_refl n, ?_, (cursor.read n).2, hnext, ?_⟩
  · rw [hread, Cursor.read_eq, hrest]
  · have hpos : (cursor.read n).2.pos = cursor.pos + (cursor.read n).1.length := rfl
    have hinner : (cursor.read n).2.inner = cursor.inner := rfl
    rw [hpos, hinner, Cursor.read_eq, hrest, List.drop_drop, List.length_take, List.length_drop]
    by_cases hlong : cursor.pos + n ≤ cursor.inner.length
    · congr 1
      omega
    · rw [List.drop_of_length_le (by omega), List.drop_of_length_le (by omega)]

/- An opened file is at its beginning. -/
theorem openDb_ok (backend : Backend σ Stream Writer Schema Batch) (s : σ) (path : Str)
    (file : FsFile Writer Schema Batch) (h : openDb backend s path = .ok file) :
    (∃ data hdata info, file = .db (DbFile.readable data hdata info)) ∨
    ∃ schema items format info opened, file = .encoded opened ∧
      EncodedDbFile.new backend.codecs ⟨schema, items, false⟩ format info = .ok opened := by
  have hreadable (data : List Byte) (info : FileInfo)
      (h : readableFile data info = .ok file) :
      ∃ data hdata info, file = .db (DbFile.readable data hdata info) := by
    unfold readableFile at h
    split at h
    · next hdata => exact ⟨data, hdata, info, (Except.ok.inj h).symm⟩
    · cases h
  unfold openDb at h
  obtain ⟨parsed, _, h⟩ := Checked.bind_eq_ok_iff.mp h
  split at h
  · next format _ =>
    obtain ⟨names, _, h⟩ := Checked.bind_eq_ok_iff.mp h
    obtain ⟨relationInfo, _, h⟩ := Checked.bind_eq_ok_iff.mp h
    split at h
    · obtain ⟨ddl, _, h⟩ := Checked.bind_eq_ok_iff.mp h
      exact .inl (hreadable _ _ h)
    · obtain ⟨options, _, h⟩ := Checked.bind_eq_ok_iff.mp h
      obtain ⟨sql, _, h⟩ := Checked.bind_eq_ok_iff.mp h
      obtain ⟨answer, _, h⟩ := Checked.bind_eq_ok_iff.mp h
      obtain ⟨opened, hnew, h⟩ := Checked.bind_eq_ok_iff.mp h
      exact .inr ⟨_, _, _, _, opened, (Except.ok.inj h).symm, hnew⟩
  · obtain ⟨names, _, h⟩ := Checked.bind_eq_ok_iff.mp h
    obtain ⟨definition, _, h⟩ := Checked.bind_eq_ok_iff.mp h
    exact .inl (hreadable _ _ h)
  · cases h

/-- An opened file that can be read to its end answers as the cursor over what is read. -/
theorem answersAs_of_readToEnd (backend : Backend σ Stream Writer Schema Batch) (s : σ)
    (path : Str) (file : FsFile Writer Schema Batch) (hopen : openDb backend s path = .ok file)
    (bytes : List Byte) (hlen : bytes.length < 2 ^ 63) (sizes : Nat → ℕ+) (fuel : Nat)
    (h : Reading.readToEnd (FsFile.read backend.codecs) sizes fuel 0 file = some (.ok bytes)) :
    AnswersAs backend.codecs file (Cursor.new bytes hlen) := by
  rcases openDb_ok backend s path file hopen with
    ⟨data, hdata, info, hfile⟩ | ⟨schema, items, format, info, opened, hfile, hnew⟩
  · subst hfile
    have hleft : StillToRead backend.codecs (.db (DbFile.readable data hdata info)) data :=
      ⟨Cursor.new data hdata, rfl, rfl⟩
    have hsame := Reading.readToEnd_unique (FsFile.read_serves backend.codecs) sizes fuel 0 _ data
      bytes hleft h
    subst hsame
    exact rfl
  · subst hfile
    rw [Reading.readToEnd_embed (fun n file => EncodedDbFile.read backend.codecs n file)
      FsFile.encoded (fun _ _ => rfl)] at h
    exact represents_of_readToEnd backend.codecs format schema items info opened bytes hlen hnew
      sizes fuel 0 h

end FsspecDb.Fs
