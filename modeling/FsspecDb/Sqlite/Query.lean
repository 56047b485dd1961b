import FsspecDb.Sqlite.Batch
import FsspecDb.Stream.Native

/-!
# SqliteDatabase::query

The streaming worker over SQLite rows: when the single connection of the pool
can deadlock, and when the batches of the reader keep its schema.
-/

namespace FsspecDb.Sqlite
open FsspecDb.Stream Transition

/-- A result of a query: name and declared type name of each column, the rows
fetched before the end or an error, and what preparing the statement tells about
its columns. Every row is as wide as the columns, of which there is at least one. -/
structure ResultSet where
  columns : List (Str × Str)
  rows : List SqliteRow
  fetchError : Option DbError
  prepared : Except DbError (List (Str × Str))
  columns_ne_nil : columns ≠ []
  width : ∀ row ∈ rows, row.length = columns.length

def sqliteSource (floats : FloatText) (result : ResultSet) :
    Source SqliteRow Schema RecordBatch where
  rows := result.rows
  fetchError := result.fetchError
  toBatch := sqliteRowsToBatch floats result.columns
  schema := RecordBatch.schema
  querySchema := result.prepared.map sqliteSchema
  newEmpty := RecordBatch.newEmpty
  closed := .Other "SQLite query stream closed".toList

/-! ### The backend as a reader of columns -/

theorem push_length (floats : FloatText) (column column' : ColumnValues) (raw : SqliteValue)
    (h : ColumnValues.push floats column raw = .ok column') :
    column'.finish.length = column.finish.length + 1 := by
  rw [ColumnValues.finish_length, ColumnValues.finish_length]
  unfold ColumnValues.push at h
  split at h
  · rw [← Except.ok.inj h]
    cases column <;> simp [ColumnValues.pushNull, ColumnValues.length]
  · cases column <;>
    · obtain ⟨value, _, rfl⟩ := Checked.map_eq_ok_iff.mp h
      simp [ColumnValues.length]

def sqliteReader (floats : FloatText) : ColumnReader SqliteValue ColumnValues where
  typeName raw := if raw.isNull then none else some raw.typeName
  new := ColumnValues.new
  push := ColumnValues.push floats
  dataType := ColumnValues.dataType
  finish := ColumnValues.finish
  new_length names := by rw [ColumnValues.finish_length, new_length]
  push_length := fun column raw column' => push_length floats column column' raw

theorem eachColumn_eq {α : Type} (f : α → SqliteValue → Except DbError α) :
    eachColumn f = eachValue f := by
  funext xs row
  induction xs generalizing row with
  | nil => rfl
  | cons x xs ih =>
    cases row with
    | nil => rfl
    | cons raw row => simp only [eachColumn, eachValue, ih]

theorem sqliteRowsToBatch_eq (floats : FloatText) (columnMetadata : List (Str × Str))
    (rows : List SqliteRow) :
    sqliteRowsToBatch floats columnMetadata rows =
      rowsToBatch (sqliteReader floats) columnMetadata rows := by
  have hnames : (fun (names : List Str) (raw : SqliteValue) =>
      (pure (pushName names raw) : Except DbError (List Str))) =
        fun names raw => pure (names ++ ((sqliteReader floats).typeName raw).toList) := by
    funext names raw
    simp only [pushName, sqliteReader]
    split <;> simp
  simp only [sqliteRowsToBatch, rowsToBatch, hnames, eachColumn_eq]
  rfl

/-- The SQLite worker is the native one over the SQLite columns. -/
theorem sqliteSource_eq (floats : FloatText) (result : ResultSet) :
    sqliteSource floats result = nativeSource (sqliteReader floats)
      ⟨result.columns, result.rows, result.fetchError, result.prepared⟩
      (.Other "SQLite query stream closed".toList) := by
  have htoBatch : sqliteRowsToBatch floats result.columns =
      rowsToBatch (sqliteReader floats) result.columns :=
    funext (sqliteRowsToBatch_eq floats result.columns)
  rw [sqliteSource, nativeSource, htoBatch]
  rfl

/- Every part of the rows makes a batch with the types of that part. -/
theorem toBatch_ok (floats : FloatText) (result : ResultSet) (rows : List SqliteRow)
    (h : ∀ row ∈ rows, row ∈ result.rows) :
    ∃ batch, (sqliteSource floats result).toBatch rows = .ok batch ∧
      batch.schema = schemaOf result.columns (columnTypes result.columns rows) := by
  obtain ⟨batch, hbatch, hschema, _⟩ := sqliteRowsToBatch_ok floats result.columns rows
    result.columns_ne_nil fun row hrow => result.width row (h row hrow)
  exact ⟨batch, hbatch, hschema⟩

/- All chunks convert, so there are two if the result has them. -/
theorem twoChunks_iff (floats : FloatText) (result : ResultSet) :
    TwoChunks (sqliteSource floats result) ↔ Fetched result.fetchError result.rows 1 := by
  constructor
  · exact fun h => h.1
  · intro h
    obtain ⟨first, hfirst, _⟩ := toBatch_ok floats result _ (mem_chunkAt result.rows 0)
    obtain ⟨second, hsecond, _⟩ := toBatch_ok floats result _ (mem_chunkAt result.rows 1)
    exact ⟨h, ⟨first, hfirst⟩, second, hsecond⟩

/-- No interleaving of the worker of one query with the calls of the client ends
with both waiting for each other, exactly if the result has at most one chunk of
rows, or its fetch fails before there are two. -/
theorem single_connection_deadlock_free_iff (floats : FloatText) (result : ResultSet) :
    (∀ t, Reachable Step (start (sqliteSource floats result)) t → ¬ Deadlocked t) ↔
      result.rows.length ≤ QUERY_BATCH_SIZE ∨
        (result.fetchError ≠ none ∧ result.rows.length < 2 * QUERY_BATCH_SIZE) := by
  rw [deadlockFree_iff, twoChunks_iff, Fetched, not_or, not_and_or, Nat.mul_one,
    Nat.mul_comm QUERY_BATCH_SIZE]
  simp only [QUERY_BATCH_SIZE]
  constructor
  · rintro ⟨hfull, hfew | hfails⟩
    · exact .inl (by omega)
    · exact .inr ⟨hfails, by omega⟩
  · rintro (hfew | ⟨hfails, hfew⟩)
    · exact ⟨by omega, .inl (by omega)⟩
    · exact ⟨by omega, .inr hfails⟩

def integers (n : Nat) : ResultSet where
  columns := [("id".toList, "INTEGER".toList)]
  rows := List.replicate n [.integer 1]
  fetchError := none
  prepared := .ok [("id".toList, "INTEGER".toList)]
  columns_ne_nil := List.cons_ne_nil _ _
  width := fun row hrow => by rw [List.eq_of_mem_replicate hrow]; rfl

/-- 2048 rows, and a client that asks for a connection before its first batch. -/
theorem query_2048_rows_deadlocks :
    ∃ t, Reachable Step (start (sqliteSource zeroText (integers 2048))) t ∧ Deadlocked t := by
  refine deadlock_of_twoChunks _ ((twoChunks_iff zeroText (integers 2048)).mpr (.inl ?_))
  rw [integers, List.length_replicate, QUERY_BATCH_SIZE]

/-! ### What a caller that keeps receiving observes -/

/-- One row, received to the end. -/
theorem native_stream_delivers_integers : ∃ pairs failure as t,
    Completed (sqliteSource zeroText (integers 1)) (integers 1).rows pairs failure ∧
    Run Receiving (start (sqliteSource zeroText (integers 1))) as t ∧ .recvEnd ∈ as ∧
    Observes (answer (sqliteSource zeroText (integers 1)) pairs failure)
      (items (sqliteSource zeroText (integers 1)) pairs failure) as t := by
  obtain ⟨batch, hbatch, _⟩ := toBatch_ok zeroText (integers 1) (integers 1).rows fun _ => id
  have hprog : fetchLoop (sqliteSource zeroText (integers 1)) (integers 1).rows [] false =
      .sendSchema (.ok batch.schema) (.sendBatch (.ok batch) (.release .done) (.release .done))
        (.release (report false (.Other "SQLite query stream closed".toList))) := by
    have hrows : (integers 1).rows ≠ [] := by simp [integers]
    rw [fetchLoop_last _ _ false (by simp [integers, QUERY_BATCH_SIZE])]
    have hend : (sqliteSource zeroText (integers 1)).fetchError = none := rfl
    simp only [hend, lastChunk, List.isEmpty_iff, hrows, if_false, sendChunk, hbatch]
    rfl
  have hrun : ∃ t, Run Receiving (start (sqliteSource zeroText (integers 1)))
      [.acquire, .sendSchema, .recvSchema, .sendBatch, .release, .next, .recv, .next, .recvEnd]
      t := by
    refine ⟨_, .cons ⟨.acquire rfl rfl, rfl⟩ (.cons ⟨.sendSchema hprog rfl Nat.zero_lt_one, rfl⟩
      (.cons ⟨.recvSchema rfl rfl, rfl⟩ (.cons ⟨.sendBatch rfl rfl Nat.zero_lt_one, rfl⟩
      (.cons ⟨.release rfl rfl, rfl⟩ (.cons ⟨.next rfl rfl, rfl⟩ (.cons ⟨.recv rfl rfl, rfl⟩
      (.cons ⟨.next rfl rfl, rfl⟩ (.cons ⟨.recvEnd rfl rfl rfl, rfl⟩ (.nil _)))))))))⟩
  obtain ⟨t, hrun⟩ := hrun
  obtain ⟨pairs, failure, hcompleted, _, _, _, hobserves⟩ := native_stream_delivers
    (sqliteReader zeroText) ⟨(integers 1).columns, (integers 1).rows, none, (integers 1).prepared⟩
    (.Other "SQLite query stream closed".toList)
  have hsource := sqliteSource_eq zeroText (integers 1)
  rw [hsource] at hrun ⊢
  exact ⟨pairs, failure, _, t, hcompleted, hrun, by simp, hobserves _ t hrun⟩

/-! ### The schema of the reader -/

/-- A full chunk of integers and then one text, under a column declared INTEGER. -/
def integersThenText : ResultSet where
  columns := [("id".toList, "INTEGER".toList)]
  rows := List.replicate QUERY_BATCH_SIZE [.integer 1] ++ [[.text "x".toList]]
  fetchError := none
  prepared := .ok [("id".toList, "INTEGER".toList)]
  columns_ne_nil := List.cons_ne_nil _ _
  width := fun row hrow => by
    rcases List.mem_append.mp hrow with h | h
    · rw [List.eq_of_mem_replicate h]; rfl
    · rw [List.mem_singleton.mp h]; rfl

theorem columnTypes_integers (n : Nat) :
    columnTypes [("id".toList, "INTEGER".toList)] (List.replicate n [.integer 1]) = [.Int64] := by
  have hranks : (List.replicate n [SqliteValue.integer 1]).foldl widen [1] = [1] := by
    induction n with
    | zero => rfl
    | succ n ih => rw [List.replicate_succ, List.foldl_cons]; exact ih
  have hdeclared : rank "INTEGER".toList = 1 := by decide
  rw [columnTypes, columnRanks, List.map_cons, List.map_nil, hdeclared, hranks]
  rfl

end FsspecDb.Sqlite
