import FsspecDb.Insert.Transaction

/-!
# The inserts of the three backends

Each backend is sound, so each of them takes all of the batches or none.
-/

namespace FsspecDb.Insert
open Text Fs Checked

variable {V : Type}

/-! ### INSERT -/

section
variable {engine : Engine V Argument} {dialect : Dialect}
variable {bind : ArrowArray → Nat → Except DbError Argument}

theorem insertStatement_committed (session : Session V) (schema relation : Str)
    (batch : RecordBatch) :
    (insertStatement dialect bind engine session schema relation batch).2.committed =
      session.committed := by
  unfold insertStatement
  split
  · rfl
  · split
    · rfl
    · exact execute_committed ..

/-- One INSERT stores the rows of its batch: the placeholders are as many as the bound
values, in the order of the columns. -/
theorem insertStatement_stored (hdialect : dialect ≠ .Postgres)
    (hquote : engine.rules.quote = Sql.identifierQuote dialect)
    (hbind : ∀ array row arg, bind array row = .ok arg → arg.value = array.cell row)
    (session session' : Session V) (schema relation : Str) (batch : RecordBatch) (table : Table V)
    (affected : Nat) (htable : session.working schema relation = some table)
    (hnodup : engine.rules.listsTwice = true →
      ((batchColumns batch).map engine.rules.fold).Nodup)
    (h : insertStatement dialect bind engine session schema relation batch =
      (.ok affected, session')) :
    ∃ rows, session'.working =
        session.working.set schema relation { table with rows := table.rows ++ rows } ∧
      List.Forall₂ (StoredRow engine (fun arg cell => arg.value = cell) table.columns)
        (batchRows batch) rows ∧
      affected = batch.numRows := by
  unfold insertStatement at h
  split at h
  · simp at h
  next sql hsql =>
  split at h
  · simp at h
  next args hargs =>
  obtain ⟨values, hvalues, rfl⟩ := map_eq_ok_iff.mp hargs
  have hbound : List.Forall₂ (fun row value => List.Forall₂ (fun column arg =>
      bind column row = .ok arg) batch.columns value) (List.range batch.numRows) values :=
    (mapM_eq_ok_iff.mp hvalues).imp fun row value hrow => mapM_eq_ok_iff.mp hrow
  have hdenotes := batchCells_denotes (fun column row arg => bind column row = .ok arg) hbind batch
    values hbound
  have hlength : values.length = batch.numRows := by
    rw [← hbound.length_eq, List.length_range]
  have hparse := Sql.parse_insertSql dialect schema relation _ _ sql hdialect hsql
  rw [← hquote] at hparse
  have hrun := execute_ok hparse h
  have hgroups : Engine.splitGroups (List.replicate batch.numRows (batchColumns batch).length)
      values.flatten = some values := by
    rw [← hlength]
    exact splitGroups_flatten _ _ (length_of_denotes hdenotes (batchCells_length batch))
  simp only [Engine.runStatement, htable, hgroups, Option.bind_eq_bind, Option.bind_some] at hrun
  obtain ⟨after, hafter, hresult⟩ := Option.bind_eq_some_iff.mp hrun
  obtain ⟨rows, rfl, hrows⟩ := insertRows_stored hdenotes (batchCells_length batch) hnodup hafter
  rw [Option.some.injEq, Prod.mk.injEq] at hresult
  rw [batchCells_zip] at hrows
  exact ⟨rows, hresult.2.symm, hrows, by rw [← hresult.1, hlength]⟩

end

/-! ### COPY -/

/-- A COPY argument stands for a cell: it is the cell's text in UTF-8, none for NULL. -/
def copyDenotes (floats : FloatText) (arg : Option (List Byte)) (cell : CellValue) : Prop :=
  ∃ field, Postgres.CellText floats cell field ∧ arg = field.map Utf8.encode

section
variable {engine : Engine V (Option (List Byte))} {core : Postgres.CsvCore} {floats : FloatText}

theorem copyBatch_committed (session : Session V) (schema relation : Str) (batch : RecordBatch) :
    (copyBatch core floats engine session schema relation batch).2.committed =
      session.committed := by
  unfold copyBatch
  split
  · rfl
  · split
    · rfl
    · exact copyIn_committed ..

theorem copyInput_fields (fields : List (Option Str)) :
    (fields.map Postgres.csvField).map (Postgres.copyInput (Utf8.encode "\\N".toList)) =
      fields.map (Option.map Utf8.encode) := by
  rw [List.map_map]
  exact List.map_congr_left fun field _ => Postgres.copyInput_csvField field

theorem copyBatch_stored (hquote : engine.rules.quote = '"') (session session' : Session V)
    (schema relation : Str) (batch : RecordBatch) (table : Table V) (affected : Nat)
    (htable : session.working schema relation = some table)
    (hnodup : engine.rules.listsTwice = true →
      ((batchColumns batch).map engine.rules.fold).Nodup)
    (h : copyBatch core floats engine session schema relation batch = (.ok affected, session')) :
    ∃ rows, session'.working =
        session.working.set schema relation { table with rows := table.rows ++ rows } ∧
      List.Forall₂ (StoredRow engine (copyDenotes floats) table.columns) (batchRows batch) rows ∧
      affected = batch.numRows := by
  unfold copyBatch at h
  split at h
  · simp at h
  next sql hsql =>
  split at h
  · simp at h
  next data hdata =>
  obtain ⟨hcolumns, hparse⟩ := Postgres.parse_copyInSql schema relation _ sql hsql
  have hne : batch.columns ≠ [] := by
    intro hnil
    have hlength := batchColumns_length batch
    rw [hnil, List.length_nil] at hlength
    exact hcolumns (List.length_eq_zero_iff.mp hlength)
  obtain ⟨records, hrecords, hread⟩ := Postgres.batchToCopyCsv_read core floats batch data hne hdata
  rw [← hquote] at hparse
  obtain ⟨after, hafter, haffected, hworking⟩ := copyIn_ok hparse htable hread h
  simp only [List.map_map, Function.comp_def] at hafter
  have hdenotes : List.Forall₂ (List.Forall₂ (copyDenotes floats))
      (records.map fun fields => (fields.map Postgres.csvField).map
        (Postgres.copyInput (Utf8.encode "\\N".toList))) (batchCells batch) := by
    rw [List.forall₂_map_left_iff]
    have hfields := @batchCells_denotes _ (fun field cell => Postgres.CellText floats cell field) _
      (Postgres.copyCsvValue_cellText floats) batch records hrecords
    refine hfields.imp fun fields cells hfields => ?_
    rw [copyInput_fields, List.forall₂_map_left_iff]
    exact hfields.imp fun field cell hcell => ⟨field, hcell, rfl⟩
  simp only [List.map_map, Function.comp_def] at hdenotes
  obtain ⟨rows, rfl, hrows⟩ := insertRows_stored hdenotes (batchCells_length batch) hnodup hafter
  rw [batchCells_zip] at hrows
  refine ⟨rows, hworking, hrows, ?_⟩
  rw [haffected, List.length_map, ← hrecords.length_eq, List.length_range]

end

/-! ### The backends -/

theorem sqliteBackend_sound {engine : Engine V Argument} (hrules : engine.rules = sqliteRules) :
    Sound sqliteBackend engine fun arg cell => arg.value = cell where
  empties schema relation text tables table hname htable := by
    refine ⟨.delete schema relation, ?_, ?_⟩
    · rw [hrules]
      exact Sql.parse_delete .Sqlite schema relation text hname
    · simp [Engine.runStatement, htable]
  keeps := insertStatement_committed
  writes session session' schema relation batch table affected htable hnames h := by
    refine insertStatement_stored (by decide) (by rw [hrules]; rfl) Sqlite.bindArrowValue_value
      session session' schema relation batch table affected htable ?_ h
    rw [hrules]
    exact fun _ => hnames

theorem mySqlBackend_sound {engine : Engine V Argument} {fold : Str → Str}
    (hrules : engine.rules = mySqlRules fold) :
    Sound mySqlBackend engine fun arg cell => arg.value = cell where
  empties schema relation text tables table hname htable := by
    refine ⟨.delete schema relation, ?_, ?_⟩
    · rw [hrules]
      exact Sql.parse_delete .MySql schema relation text hname
    · simp [Engine.runStatement, htable]
  keeps := insertStatement_committed
  writes session session' schema relation batch table affected htable _ h :=
    insertStatement_stored (by decide) (by rw [hrules]; rfl) MySql.bindArrowValue_value
      session session' schema relation batch table affected htable
      (by rw [hrules]; exact fun h => by cases h) h

theorem postgresBackend_sound {engine : Engine V (Option (List Byte))} (core : Postgres.CsvCore)
    (floats : FloatText) (hrules : engine.rules = postgresRules) :
    Sound (postgresBackend core floats) engine (copyDenotes floats) where
  empties schema relation text tables table hname htable := by
    refine ⟨.truncate schema relation, ?_, ?_⟩
    · rw [hrules]
      exact Sql.parse_truncate .Postgres schema relation text hname
    · simp [Engine.runStatement, htable, hrules, postgresRules]
  keeps := copyBatch_committed
  writes session session' schema relation batch table affected htable _ h :=
    copyBatch_stored (by rw [hrules]; rfl) session session' schema relation batch table affected
      htable (by rw [hrules]; exact fun h => by cases h) h

/-- `insert` of the three backends takes all rows of all batches or changes nothing. -/
theorem insert_allOrNothing (V : Type) (tables : Tables V) (schema relation : Str)
    (table : Table V) (batches : BatchReader) (mode : InsertMode)
    (htable : tables schema relation = some table)
    (hnames : ∀ batch, .ok batch ∈ batches →
      ((batchColumns batch).map toAsciiLowercase).Nodup) :
    (∀ engine : Engine V Argument, engine.rules = sqliteRules →
      AllOrNothing engine (fun arg cell => arg.value = cell) tables schema relation table batches
        mode (SqliteDatabase.insert engine tables schema relation batches mode)) ∧
    (∀ (engine : Engine V Argument) (fold : Str → Str), engine.rules = mySqlRules fold →
      AllOrNothing engine (fun arg cell => arg.value = cell) tables schema relation table batches
        mode (MySqlDatabase.insert engine tables schema relation batches mode)) ∧
    (∀ (engine : Engine V (Option (List Byte))) (core : Postgres.CsvCore) (floats : FloatText),
      engine.rules = postgresRules →
      AllOrNothing engine (copyDenotes floats) tables schema relation table batches mode
        (PostgresDatabase.insert core floats engine tables schema relation batches mode)) :=
  ⟨fun _ hrules =>
    insertWith_allOrNothing (sqliteBackend_sound hrules) tables table htable batches mode hnames,
  fun _ _ hrules =>
    insertWith_allOrNothing (mySqlBackend_sound hrules) tables table htable batches mode hnames,
  fun _ core floats hrules =>
    insertWith_allOrNothing (postgresBackend_sound core floats hrules) tables table htable batches
      mode hnames⟩

def textEngine (rules : Rules) : Engine (Option Str) Argument where
  rules := rules
  coerce _ arg :=
    match arg with
    | .Null => some none
    | .Text value => some (some value)
    | _ => none
  default _ _ := some none
  fails _ := none
  rejected := .Other "constraint failed".toList

def textCopyEngine : Engine (Option Str) (Option (List Byte)) where
  rules := postgresRules
  coerce _ arg := some (arg.map Utf8.fromUtf8Lossy)
  default _ _ := some none
  fails _ := none
  rejected := .Other "constraint failed".toList

/-- The columns of the table in another order, and a NULL. -/
def namesBatch : RecordBatch where
  schema := [⟨"last".toList, .Utf8, true⟩, ⟨"first".toList, .Utf8, true⟩]
  columns := [.utf8 [some "Hopper".toList, none], .utf8 [some "Grace".toList, some "Ada".toList]]
  numRows := 2
  wellFormed := by decide

def namesTable : Table (Option Str) :=
  ⟨["first".toList, "last".toList], [[some "Alan".toList, none]]⟩

def namesTables : Tables (Option Str) :=
  Tables.set (fun _ _ => none) "main".toList "names".toList namesTable

/-- Two rows take the place of one in each backend. -/
theorem insert_two_names :
    (AllOrNothing (textEngine sqliteRules) (fun arg cell => arg.value = cell) namesTables
        "main".toList "names".toList namesTable [.ok namesBatch] .Truncate
        (SqliteDatabase.insert (textEngine sqliteRules) namesTables "main".toList "names".toList
          [.ok namesBatch] .Truncate) ∧
      AllOrNothing (textEngine (mySqlRules toAsciiLowercase)) (fun arg cell => arg.value = cell)
        namesTables "main".toList "names".toList namesTable [.ok namesBatch] .Truncate
        (MySqlDatabase.insert (textEngine (mySqlRules toAsciiLowercase)) namesTables "main".toList
          "names".toList [.ok namesBatch] .Truncate) ∧
      AllOrNothing textCopyEngine (copyDenotes zeroText) namesTables
        "main".toList "names".toList namesTable [.ok namesBatch] .Truncate
        (PostgresDatabase.insert Postgres.bufferedCsvCore zeroText
          textCopyEngine namesTables "main".toList "names".toList [.ok namesBatch] .Truncate)) ∧
    (SqliteDatabase.insert (textEngine sqliteRules) namesTables "main".toList "names".toList
        [.ok namesBatch] .Truncate).1 = .ok 2 ∧
    (MySqlDatabase.insert (textEngine (mySqlRules toAsciiLowercase)) namesTables "main".toList
        "names".toList [.ok namesBatch] .Truncate).1 = .ok 2 ∧
    (PostgresDatabase.insert Postgres.bufferedCsvCore zeroText
        textCopyEngine namesTables "main".toList "names".toList [.ok namesBatch] .Truncate).1 =
      .ok 2 := by
  refine ⟨?_, by decide +kernel, by decide +kernel, by decide +kernel⟩
  have hnames : ∀ batch, Except.ok batch ∈ ([.ok namesBatch] : BatchReader) →
      ((batchColumns batch).map toAsciiLowercase).Nodup := by
    intro batch hbatch
    rw [List.mem_singleton, Except.ok.injEq] at hbatch
    rw [hbatch]
    decide
  obtain ⟨hsqlite, hmysql, hpostgres⟩ := insert_allOrNothing (Option Str) namesTables "main".toList
    "names".toList namesTable [.ok namesBatch] .Truncate (Tables.set_self ..) hnames
  exact ⟨hsqlite (textEngine sqliteRules) rfl,
    hmysql (textEngine (mySqlRules toAsciiLowercase)) toAsciiLowercase rfl,
    hpostgres textCopyEngine Postgres.bufferedCsvCore zeroText rfl⟩

end FsspecDb.Insert
