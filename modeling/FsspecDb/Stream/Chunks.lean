import FsspecDb.Stream.Delivery

/-!
# The chunks of a result and the reader's schema

The worker sends the batches of the chunks in order. All of them have the schema
of the reader, in every interleaving, exactly if they have the schema of the
first one.
-/

namespace FsspecDb.Stream
open Transition

variable {Row Schema Batch : Type}

/-! ### Matching chunks make a matching program -/

theorem batchesMatch_report (src : Source Row Schema Batch) (schema : Schema) (err : DbError) :
    BatchesMatch src.schema schema (report true err) :=
  ⟨fun _ h => absurd h (by simp), trivial, trivial⟩

theorem schemaMatch_report (src : Source Row Schema Batch) (err : DbError) :
    SchemaMatch src.schema (report false err) := ⟨trivial, trivial⟩

theorem batchesMatch_loop (src : Source Row Schema Batch) (schema : Schema) (rows : List Row)
    (h : ∀ k, Fetched src.fetchError rows k → ∀ batch, src.toBatch (chunkAt rows k) = .ok batch →
      src.schema batch = schema) :
    BatchesMatch src.schema schema (fetchLoop src rows [] true) := by
  induction hn : rows.length using Nat.strongRecOn generalizing rows with
  | ind n ih =>
    by_cases hfull : QUERY_BATCH_SIZE ≤ rows.length
    · rw [fetchLoop_chunk src rows true hfull]
      have hrest := ih (rows.drop QUERY_BATCH_SIZE).length (by
        rw [List.length_drop, ← hn]
        simp only [QUERY_BATCH_SIZE] at hfull ⊢
        omega) (rows.drop QUERY_BATCH_SIZE) (fun k hk => by
        rw [chunkAt_drop]; exact h (k + 1) ((fetched_drop _ rows k).mp hk)) rfl
      cases hbatch : src.toBatch (rows.take QUERY_BATCH_SIZE) with
      | error err =>
        simp only [sendChunk, hbatch]
        exact batchesMatch_report src schema err
      | ok batch =>
        simp only [sendChunk, hbatch, if_true]
        refine ⟨fun b hb => ?_, hrest, trivial⟩
        obtain rfl : batch = b := by simpa using hb
        exact h 0 (.inl (by omega)) batch (by rw [chunkAt_zero]; exact hbatch)
    · have hshort : rows.length < QUERY_BATCH_SIZE := Nat.lt_of_not_le hfull
      rw [fetchLoop_short src rows [] true (by simpa using hshort), List.nil_append]
      unfold fetchLoop
      cases herr : src.fetchError with
      | some err => exact batchesMatch_report src schema err
      | none =>
        show BatchesMatch src.schema schema (lastChunk src true rows)
        unfold lastChunk
        split
        · exact trivial
        · next hne =>
          cases hbatch : src.toBatch rows with
          | error err =>
            simp only [sendChunk, hbatch]
            exact batchesMatch_report src schema err
          | ok batch =>
            simp only [sendChunk, hbatch, if_true]
            refine ⟨fun b hb => ?_, trivial, trivial⟩
            obtain rfl : batch = b := by simpa using hb
            have hpos : 0 < rows.length := by
              rw [List.length_pos_iff]
              simpa using hne
            exact h 0 (.inr ⟨by simpa using hpos, herr⟩) batch
              (by rw [chunkAt_short rows hshort]; exact hbatch)

/-- If every fetched chunk that converts has the schema of the first, the worker
sends only batches of the schema it sent. -/
theorem schemaMatch_streamWorker (src : Source Row Schema Batch)
    (hempty : ∀ schema, src.schema (src.newEmpty schema) = schema)
    (h : ∀ k, Fetched src.fetchError src.rows k → ∀ batch first,
      src.toBatch (chunkAt src.rows k) = .ok batch → src.toBatch (chunkAt src.rows 0) = .ok first →
      src.schema batch = src.schema first) :
    SchemaMatch src.schema (streamWorker src) := by
  show SchemaMatch src.schema (fetchLoop src src.rows [] false)
  by_cases hfull : QUERY_BATCH_SIZE ≤ src.rows.length
  · rw [fetchLoop_chunk src src.rows false hfull]
    cases hfirst : src.toBatch (src.rows.take QUERY_BATCH_SIZE) with
    | error err =>
      simp only [sendChunk, hfirst]
      exact schemaMatch_report src err
    | ok first =>
      simp only [sendChunk, hfirst, Bool.false_eq_true, if_false]
      refine ⟨⟨fun b hb => ?_, ?_, trivial⟩, schemaMatch_report src src.closed⟩
      · obtain rfl : first = b := by simpa using hb
        rfl
      · refine batchesMatch_loop src _ _ fun k hk batch hbatch => ?_
        rw [chunkAt_drop] at hbatch
        exact h (k + 1) ((fetched_drop _ _ k).mp hk) batch first hbatch
          (by rw [chunkAt_zero]; exact hfirst)
  · rw [fetchLoop_short src src.rows [] false (by simpa using hfull), List.nil_append]
    unfold fetchLoop
    cases src.fetchError with
    | some err => exact schemaMatch_report src err
    | none =>
      show SchemaMatch src.schema (lastChunk src false src.rows)
      unfold lastChunk
      split
      · cases src.querySchema with
        | error err => exact schemaMatch_report src err
        | ok schema =>
          refine ⟨⟨fun b hb => ?_, trivial, trivial⟩, schemaMatch_report src src.closed⟩
          obtain rfl : src.newEmpty schema = b := by simpa using hb
          exact hempty schema
      · cases hbatch : src.toBatch src.rows with
        | error err =>
          simp only [sendChunk, hbatch]
          exact schemaMatch_report src err
        | ok batch =>
          simp only [sendChunk, hbatch, Bool.false_eq_true, if_false]
          refine ⟨⟨fun b hb => ?_, trivial, trivial⟩, schemaMatch_report src src.closed⟩
          obtain rfl : batch = b := by simpa using hb
          rfl

/-! ### A client that keeps receiving gets every chunk -/

/- One batch: sent, asked for, received. -/
theorem receive_one (s : State Schema Batch) (item : Except DbError Batch)
    (sent closed : Program Schema Batch) (hw : s.worker = .sendBatch item sent closed)
    (hreader : s.reader = true) (hphase : s.phase = .idle) (hbatches : s.batches = []) :
    Reachable Step s { s with worker := sent, received := s.received ++ [item] } := by
  obtain ⟨pool, worker, schemas, batches, reader, phase, schema, received⟩ := s
  dsimp only at hw hreader hphase hbatches
  subst hw hreader hphase hbatches
  apply Reachable.head (.sendBatch rfl rfl Nat.zero_lt_one)
  apply Reachable.head (.next rfl rfl)
  apply Reachable.head (.recv rfl rfl)
  exact Reachable.refl _ _

/- From the top of the row loop, the schema sent, chunk `k` gets received. -/
theorem receive_chunk (src : Source Row Schema Batch) (k : Nat) (rows : List Row)
    (hok : ∀ i, i ≤ k → ∃ batch, src.toBatch (chunkAt rows i) = .ok batch)
    (hk : Fetched src.fetchError rows k) (schema : Schema)
    (received : List (Except DbError Batch)) :
    ∃ t, Reachable Step
        ⟨.worker, fetchLoop src rows [] true, [], [], true, .idle, some schema, received⟩ t ∧
      t.schema = some schema ∧
      ∃ batch, src.toBatch (chunkAt rows k) = .ok batch ∧ .ok batch ∈ t.received := by
  induction k generalizing rows received with
  | zero =>
    obtain ⟨batch, hbatch⟩ := hok 0 (Nat.le_refl 0)
    obtain ⟨sent, hprog⟩ := fetchLoop_sends src rows batch hk hbatch
    rw [hprog]
    exact ⟨_, receive_one _ _ _ _ rfl rfl rfl rfl, rfl, batch, hbatch,
      List.mem_append_right _ (List.mem_singleton_self _)⟩
  | succ k ih =>
    have hfull : QUERY_BATCH_SIZE ≤ rows.length := by
      simp only [Fetched, QUERY_BATCH_SIZE] at hk ⊢
      omega
    obtain ⟨batch, hbatch⟩ := hok 0 (Nat.zero_le _)
    have hprog := fetchLoop_chunk src rows true hfull
    rw [← chunkAt_zero] at hprog
    simp only [sendChunk, hbatch, if_true] at hprog
    obtain ⟨t, hreach, hschema, last, hlast, hmem⟩ := ih (rows.drop QUERY_BATCH_SIZE)
      (fun i hi => by rw [chunkAt_drop]; exact hok (i + 1) (by omega))
      ((fetched_drop _ rows k).mpr hk) (received ++ [.ok batch])
    rw [chunkAt_drop] at hlast
    rw [hprog]
    exact ⟨t, (receive_one _ _ _ _ rfl rfl rfl rfl).trans hreach, hschema, last, hlast, hmem⟩

/-- Where every fetched chunk converts, the batches of the reader all have its
schema, whatever the interleaving, exactly if the chunks agree with the first. -/
theorem reader_schema_iff (src : Source Row Schema Batch)
    (hempty : ∀ schema, src.schema (src.newEmpty schema) = schema)
    (hok : ∀ k, Fetched src.fetchError src.rows k →
      ∃ batch, src.toBatch (chunkAt src.rows k) = .ok batch) :
    (∀ t, Reachable Step (start src) t → ∀ schema, t.schema = some schema →
      ItemsMatch src.schema schema t.received) ↔
    ∀ k, Fetched src.fetchError src.rows k → ∀ batch first,
      src.toBatch (chunkAt src.rows k) = .ok batch → src.toBatch (chunkAt src.rows 0) = .ok first →
      src.schema batch = src.schema first := by
  constructor
  · intro hall k hk batch first hbatch hfirst
    cases k with
    | zero =>
      obtain rfl : batch = first := by simpa using hbatch.symm.trans hfirst
      rfl
    | succ k =>
      have hfull : QUERY_BATCH_SIZE ≤ src.rows.length := by
        simp only [Fetched, QUERY_BATCH_SIZE] at hk ⊢
        omega
      have hall' : ∀ i, i ≤ k + 1 → ∃ batch, src.toBatch (chunkAt src.rows i) = .ok batch := by
        intro i hi
        by_cases heq : i = k + 1
        · exact heq ▸ ⟨batch, hbatch⟩
        · refine hok i (.inl ?_)
          simp only [Fetched, QUERY_BATCH_SIZE] at hk ⊢
          omega
      obtain ⟨t, hreach, hschema, last, hlast, hmem⟩ := receive_chunk src (k + 1) src.rows hall' hk
        (src.schema first) []
      obtain rfl : batch = last := by simpa using hbatch.symm.trans hlast
      refine hall t (Reachable.trans ?_ hreach) (src.schema first) hschema batch hmem
      -- the schema goes to `query`, the worker is at its first batch
      have hloop (sent : Bool) := fetchLoop_chunk src src.rows sent hfull
      rw [← chunkAt_zero] at hloop
      simp only [sendChunk, hfirst] at hloop
      apply Reachable.head (.acquire rfl rfl)
      apply Reachable.head (.sendSchema (hloop false) rfl Nat.zero_lt_one)
      apply Reachable.head (.recvSchema rfl rfl)
      rw [hloop true]
      exact Reachable.refl _ _
  · intro hsame t hreach schema hschema
    exact received_matches src src.schema (schemaMatch_streamWorker src hempty hsame) t hreach
      schema hschema

end FsspecDb.Stream
