import FsspecDb.Error

/-!
# The streaming worker of a native query (sqlite.rs, postgres.rs, mysql.rs)

`query` spawns one thread that fetches rows on a pooled connection, turns each
`QUERY_BATCH_SIZE` of them into a record batch and hands the schema and the
batches to the caller over two channels. The three backends run the same code,
so the worker is one definition over what differs between them (`Source`). It
is kept as data: a `Program` is the sequence of effects the thread still has
to perform, with both continuations of every send.
-/

namespace FsspecDb.Stream

def QUERY_BATCH_SIZE : Nat := 1024

/-- The effects of the worker thread. `acquire` waits for a pooled connection, and after
`release` the connection is in the pool again; a send continues with `sent`, or with `closed` if
the receiving end is gone. -/
inductive Program (Schema Batch : Type) where
  | done
  | acquire (next : Program Schema Batch)
  | release (next : Program Schema Batch)
  | sendSchema (item : Except DbError Schema) (sent closed : Program Schema Batch)
  | sendBatch (item : Except DbError Batch) (sent closed : Program Schema Batch)

/-- What one query hands to the worker: the rows the statement yields, what
`try_next` answers after the last of them (`none` is the end of the result),
and the backend's own conversion functions. -/
structure Source (Row Schema Batch : Type) where
  rows : List Row
  fetchError : Option DbError
  toBatch : List Row → Except DbError Batch
  schema : Batch → Schema
  querySchema : Except DbError Schema
  newEmpty : Schema → Batch
  closed : DbError

variable {Row Schema Batch : Type}

/- The tail of the closure in `sqlite_stream_query`: an error of the worker goes
to the batch channel once the schema was sent, to the schema channel before. -/
def report (schemaSent : Bool) (err : DbError) : Program Schema Batch :=
  if schemaSent then .sendBatch (.error err) .done .done
  else .sendSchema (.error err) .done .done

/- `send_sqlite_chunk`. `next` and `stop` are what the caller does on `Ok(true)`
and on `Ok(false)`, `fail` what it does on an error, given whether the schema
was sent by then. -/
def sendChunk (src : Source Row Schema Batch) (schemaSent : Bool) (chunk : List Row)
    (next stop : Program Schema Batch) (fail : Bool → DbError → Program Schema Batch) :
    Program Schema Batch :=
  match src.toBatch chunk with
  | .error err => fail schemaSent err
  | .ok batch =>
    if schemaSent then .sendBatch (.ok batch) next stop
    else .sendSchema (.ok (src.schema batch)) (.sendBatch (.ok batch) next stop)
      (fail false src.closed)

/- The end of the worker, after `drop(rows)`. That leaves the return of the connection to a task
of the runtime, and its one thread is busy with the worker until the worker waits for something
or is at its end. So the last chunk is sent before the connection is back, and only a result
without rows has it back at once: it waits for a connection to prepare the statement. -/
def lastChunk (src : Source Row Schema Batch) (schemaSent : Bool) (chunk : List Row) :
    Program Schema Batch :=
  if chunk.isEmpty then
    if schemaSent then .release .done
    else .release (.acquire
      (match src.querySchema with
        | .error err => .release (report false err)
        | .ok schema => .sendSchema (.ok schema)
            (.sendBatch (.ok (src.newEmpty schema)) (.release .done) (.release .done))
            (.release (report false src.closed))))
  else sendChunk src schemaSent chunk (.release .done) (.release .done)
    (fun sent err => .release (report sent err))

/- The `while let Some(row) = rows.try_next()` loop. Leaving it early, by `?` or
by `return Ok(())`, ends the worker and gives the connection back. -/
def fetchLoop (src : Source Row Schema Batch) : List Row → List Row → Bool → Program Schema Batch
  | [], chunk, schemaSent =>
    match src.fetchError with
    | some err => .release (report schemaSent err)
    | none => lastChunk src schemaSent chunk
  | row :: rest, chunk, schemaSent =>
    if (chunk ++ [row]).length = QUERY_BATCH_SIZE then
      sendChunk src schemaSent (chunk ++ [row]) (fetchLoop src rest [] true)
        (.release .done) (fun sent err => .release (report sent err))
    else fetchLoop src rest (chunk ++ [row]) schemaSent

/-- `sqlite_stream_worker` (and its two siblings) with the closure around it. -/
def streamWorker (src : Source Row Schema Batch) : Program Schema Batch :=
  .acquire (fetchLoop src src.rows [] false)

theorem fetchLoop_cons (src : Source Row Schema Batch) (row : Row) (rest chunk : List Row)
    (schemaSent : Bool) :
    fetchLoop src (row :: rest) chunk schemaSent =
      if (chunk ++ [row]).length = QUERY_BATCH_SIZE then
        sendChunk src schemaSent (chunk ++ [row]) (fetchLoop src rest [] true)
          (.release .done) (fun sent err => .release (report sent err))
      else fetchLoop src rest (chunk ++ [row]) schemaSent := rfl

/- Fewer rows than a chunk needs: the loop ends without sending. -/
theorem fetchLoop_short (src : Source Row Schema Batch) (rows chunk : List Row) (sent : Bool)
    (h : chunk.length + rows.length < QUERY_BATCH_SIZE) :
    fetchLoop src rows chunk sent = fetchLoop src [] (chunk ++ rows) sent := by
  induction rows generalizing chunk with
  | nil => rw [List.append_nil]
  | cons row rest ih =>
    have hne : (chunk ++ [row]).length ≠ QUERY_BATCH_SIZE := by
      simp only [List.length_append, List.length_cons, List.length_nil] at h ⊢
      omega
    have hrest : (chunk ++ [row]).length + rest.length < QUERY_BATCH_SIZE := by
      simp only [List.length_append, List.length_cons, List.length_nil] at h ⊢
      omega
    rw [fetchLoop_cons, if_neg hne, ih (chunk ++ [row]) hrest, List.append_assoc,
      List.singleton_append]

/- Enough rows for a chunk: the loop fills it, sends it and starts over. -/
theorem fetchLoop_full (src : Source Row Schema Batch) (rows chunk : List Row) (sent : Bool)
    (hc : chunk.length < QUERY_BATCH_SIZE)
    (h : QUERY_BATCH_SIZE ≤ chunk.length + rows.length) :
    fetchLoop src rows chunk sent =
      sendChunk src sent (chunk ++ rows.take (QUERY_BATCH_SIZE - chunk.length))
        (fetchLoop src (rows.drop (QUERY_BATCH_SIZE - chunk.length)) [] true)
        (.release .done) (fun sent err => .release (report sent err)) := by
  induction rows generalizing chunk with
  | nil =>
    simp only [List.length_nil] at h
    omega
  | cons row rest ih =>
    have hpos : QUERY_BATCH_SIZE - chunk.length = (QUERY_BATCH_SIZE - (chunk.length + 1)) + 1 := by
      omega
    have hlen : (chunk ++ [row]).length = chunk.length + 1 := by
      simp only [List.length_append, List.length_cons, List.length_nil]
    rw [hpos, List.take_succ_cons, List.drop_succ_cons, fetchLoop_cons]
    by_cases hfull : (chunk ++ [row]).length = QUERY_BATCH_SIZE
    · have hzero : QUERY_BATCH_SIZE - (chunk.length + 1) = 0 := by omega
      rw [if_pos hfull, hzero, List.take_zero, List.drop_zero]
    · have hc' : (chunk ++ [row]).length < QUERY_BATCH_SIZE := by omega
      have h' : QUERY_BATCH_SIZE ≤ (chunk ++ [row]).length + rest.length := by
        simp only [List.length_cons] at h
        omega
      rw [if_neg hfull, ih (chunk ++ [row]) hc' h', hlen, List.append_assoc,
        List.singleton_append]

theorem fetchLoop_chunk (src : Source Row Schema Batch) (rows : List Row) (sent : Bool)
    (h : QUERY_BATCH_SIZE ≤ rows.length) :
    fetchLoop src rows [] sent =
      sendChunk src sent (rows.take QUERY_BATCH_SIZE)
        (fetchLoop src (rows.drop QUERY_BATCH_SIZE) [] true)
        (.release .done) (fun sent err => .release (report sent err)) := by
  have hfull := fetchLoop_full src rows [] sent
    (by simp [QUERY_BATCH_SIZE]) (by simpa using h)
  simpa using hfull

/-! ### The chunks of a result -/

/-- The chunk of the rows with index `k`; only the last one may be short. -/
def chunkAt (rows : List Row) (k : Nat) : List Row :=
  (rows.drop (QUERY_BATCH_SIZE * k)).take QUERY_BATCH_SIZE

/-- The worker gets to chunk `k` of the rows: it is full, or it is the rest of
them and the result ended without an error. -/
def Fetched (fetchError : Option DbError) (rows : List Row) (k : Nat) : Prop :=
  QUERY_BATCH_SIZE * (k + 1) ≤ rows.length ∨
    (QUERY_BATCH_SIZE * k < rows.length ∧ fetchError = none)

theorem chunkAt_zero (rows : List Row) : chunkAt rows 0 = rows.take QUERY_BATCH_SIZE := by
  rw [chunkAt, Nat.mul_zero, List.drop_zero]

theorem mem_chunkAt (rows : List Row) (k : Nat) : ∀ row ∈ chunkAt rows k, row ∈ rows :=
  fun _ h => List.mem_of_mem_drop (List.mem_of_mem_take h)

theorem chunkAt_map {Row' : Type} (f : Row → Row') (rows : List Row) (k : Nat) :
    chunkAt (rows.map f) k = (chunkAt rows k).map f := by
  rw [chunkAt, chunkAt, List.map_take, List.map_drop]

theorem chunkAt_drop (rows : List Row) (k : Nat) :
    chunkAt (rows.drop QUERY_BATCH_SIZE) k = chunkAt rows (k + 1) := by
  rw [chunkAt, chunkAt, List.drop_drop, Nat.mul_add, Nat.mul_one, Nat.add_comm]

theorem fetched_drop (fetchError : Option DbError) (rows : List Row) (k : Nat) :
    Fetched fetchError (rows.drop QUERY_BATCH_SIZE) k ↔ Fetched fetchError rows (k + 1) := by
  simp only [Fetched, List.length_drop, QUERY_BATCH_SIZE]
  constructor
  · rintro (h | ⟨h, herr⟩)
    · exact .inl (by omega)
    · exact .inr ⟨by omega, herr⟩
  · rintro (h | ⟨h, herr⟩)
    · exact .inl (by omega)
    · exact .inr ⟨by omega, herr⟩

/- The rows that are left when the loop ends without filling another chunk. -/
theorem chunkAt_short (rows : List Row) (h : rows.length < QUERY_BATCH_SIZE) :
    chunkAt rows 0 = rows := by
  rw [chunkAt_zero, List.take_of_length_le (Nat.le_of_lt h)]

theorem fetched_short (fetchError : Option DbError) (rows : List Row)
    (h : rows.length < QUERY_BATCH_SIZE) :
    Fetched fetchError rows 0 ↔ rows ≠ [] ∧ fetchError = none := by
  rw [Fetched, Nat.mul_zero, Nat.zero_add, Nat.mul_one, List.length_pos_iff]
  constructor
  · rintro (hfull | hrest)
    · exact absurd h (Nat.not_lt.mpr hfull)
    · exact hrest
  · exact Or.inr

/- The loop up to the first chunk that is fetched, full or not. -/
theorem fetchLoop_last (src : Source Row Schema Batch) (rows : List Row) (sent : Bool)
    (h : rows.length < QUERY_BATCH_SIZE) :
    fetchLoop src rows [] sent = match src.fetchError with
      | some err => .release (report sent err)
      | none => lastChunk src sent rows := by
  rw [fetchLoop_short src rows [] sent (by simpa using h), List.nil_append]
  rfl

end FsspecDb.Stream
