import FsspecDb.Stream.Chunks

/-!
# What a query's worker sends

The rows of a result make chunks, the chunks are converted in order until one fails or the
result ends, and what comes of it is sent: the answer of `query` and the items of the reader.
-/

namespace FsspecDb.Stream

variable {Row Schema Batch : Type}

/-! ### The outcome of a query -/

/-- The chunks before `n` are all that are completed: the result ends in front of chunk `n`, with
the error of the fetch if there is one, or the chunk is not converted. -/
def StopsAt (src : Source Row Schema Batch) (rows : List Row) (n : Nat)
    (failure : Option DbError) : Prop :=
  (¬ Fetched src.fetchError rows n ∧ failure = src.fetchError) ∨
    (Fetched src.fetchError rows n ∧
      ∃ err, src.toBatch (chunkAt rows n) = .error err ∧ failure = some err)

/-- The chunks of the rows that are completed before a failure, with their batches: one after the
other, as far as they are fetched and converted. -/
structure Completed (src : Source Row Schema Batch) (rows : List Row)
    (pairs : List (List Row × Batch)) (failure : Option DbError) : Prop where
  chunks : ∀ k pair, pairs[k]? = some pair → Fetched src.fetchError rows k ∧
    pair.1 = chunkAt rows k ∧ src.toBatch pair.1 = .ok pair.2
  stops : StopsAt src rows pairs.length failure

/-- The rows of the completed chunks are the first rows of the result, `QUERY_BATCH_SIZE` in each
chunk; only without a failure there may be a last one with less, and then it is the rest. -/
structure Chunked (rows : List Row) (parts : List (List Row)) (failure : Option DbError) :
    Prop where
  inOrder : parts.flatten = rows.take (QUERY_BATCH_SIZE * parts.length)
  nonempty : ∀ part ∈ parts, 0 < part.length
  full : ∀ part ∈ parts.dropLast, part.length = QUERY_BATCH_SIZE
  failed : failure ≠ none → ∀ part ∈ parts, part.length = QUERY_BATCH_SIZE
  all : failure = none → parts.flatten = rows

/-- What `query` returns: the failure before a first batch, else the schema of the first
batch, or the schema of the prepared statement for a result without rows. -/
def answer (src : Source Row Schema Batch) (pairs : List (List Row × Batch))
    (failure : Option DbError) : Except DbError Schema :=
  match pairs, failure with
  | [], some err => .error err
  | [], none => src.querySchema
  | pair :: _, _ => .ok (src.schema pair.2)

/-- What the reader yields: the batches and then the failure, or one empty batch for a
result without rows. -/
def items (src : Source Row Schema Batch) (pairs : List (List Row × Batch))
    (failure : Option DbError) : List (Except DbError Batch) :=
  match pairs, failure with
  | [], some _ => []
  | [], none => (src.querySchema.toOption.map fun schema => .ok (src.newEmpty schema)).toList
  | pairs, failure => pairs.map (fun pair => .ok pair.2) ++ (failure.map .error).toList

/-! ### The sends of a program -/

/-- The schema channel's items, if the receiver stays. -/
def sentSchemas : Program Schema Batch → List (Except DbError Schema)
  | .done => []
  | .acquire next => sentSchemas next
  | .release next => sentSchemas next
  | .sendSchema item sent _ => item :: sentSchemas sent
  | .sendBatch _ sent _ => sentSchemas sent

/-- The batch channel's items, if the receiver stays. -/
def sentBatches : Program Schema Batch → List (Except DbError Batch)
  | .done => []
  | .acquire next => sentBatches next
  | .release next => sentBatches next
  | .sendSchema _ sent _ => sentBatches sent
  | .sendBatch item sent _ => item :: sentBatches sent

/-- The effects of a program, on all of its branches. -/
def work : Program Schema Batch → Nat
  | .done => 0
  | .acquire next => work next + 1
  | .release next => work next + 1
  | .sendSchema _ sent closed => work sent + work closed + 1
  | .sendBatch _ sent closed => work sent + work closed + 1

/-- The connection is acquired and given back in turns. -/
def Bracketed : Bool → Program Schema Batch → Prop
  | held, .done => held = false
  | held, .acquire next => held = false ∧ Bracketed true next
  | held, .release next => held = true ∧ Bracketed false next
  | held, .sendSchema _ sent closed => Bracketed held sent ∧ Bracketed held closed
  | held, .sendBatch _ sent closed => Bracketed held sent ∧ Bracketed held closed

theorem bracketed_report (sent : Bool) (err : DbError) :
    Bracketed false (report sent err : Program Schema Batch) := by
  cases sent <;> exact ⟨rfl, rfl⟩

theorem bracketed_sendChunk (src : Source Row Schema Batch) (sent : Bool) (chunk : List Row)
    (next : Program Schema Batch) (hnext : Bracketed true next) :
    Bracketed true (sendChunk src sent chunk next (.release .done)
      fun sent err => .release (report sent err)) := by
  unfold sendChunk
  cases src.toBatch chunk with
  | error err => exact ⟨rfl, bracketed_report sent err⟩
  | ok batch =>
    cases sent with
    | true => exact ⟨hnext, rfl, rfl⟩
    | false => exact ⟨⟨hnext, rfl, rfl⟩, rfl, bracketed_report false src.closed⟩

theorem bracketed_lastChunk (src : Source Row Schema Batch) (sent : Bool) (chunk : List Row) :
    Bracketed true (lastChunk src sent chunk) := by
  unfold lastChunk
  split_ifs
  · exact ⟨rfl, rfl⟩
  · refine ⟨rfl, rfl, ?_⟩
    cases src.querySchema with
    | error err => exact ⟨rfl, bracketed_report false err⟩
    | ok schema => exact ⟨⟨⟨rfl, rfl⟩, rfl, rfl⟩, rfl, bracketed_report false src.closed⟩
  · exact bracketed_sendChunk src sent chunk _ ⟨rfl, rfl⟩

theorem bracketed_fetchLoop (src : Source Row Schema Batch) (rows chunk : List Row) (sent : Bool) :
    Bracketed true (fetchLoop src rows chunk sent) := by
  induction rows generalizing chunk sent with
  | nil =>
    unfold fetchLoop
    cases src.fetchError with
    | some err => exact ⟨rfl, bracketed_report sent err⟩
    | none => exact bracketed_lastChunk src sent chunk
  | cons row rest ih =>
    rw [fetchLoop_cons]
    split_ifs
    · exact bracketed_sendChunk src sent _ _ (ih [] true)
    · exact ih (chunk ++ [row]) sent

/-- The schema is sent before every batch. -/
def SchemaFirst : Program Schema Batch → Prop
  | .done => True
  | .acquire next => SchemaFirst next
  | .release next => SchemaFirst next
  | .sendSchema _ sent _ => sentSchemas sent = []
  | .sendBatch _ sent _ => sentSchemas sent = []

/-! ### Completed chunks -/

theorem Completed.nil {src : Source Row Schema Batch} {rows : List Row} {failure : Option DbError}
    (h : StopsAt src rows 0 failure) : Completed src rows [] failure :=
  ⟨fun _ _ hpair => by simp at hpair, h⟩

theorem Completed.cons {src : Source Row Schema Batch} {rows : List Row} {batch : Batch}
    {pairs : List (List Row × Batch)} {failure : Option DbError}
    (hfull : QUERY_BATCH_SIZE ≤ rows.length)
    (hbatch : src.toBatch (rows.take QUERY_BATCH_SIZE) = .ok batch)
    (h : Completed src (rows.drop QUERY_BATCH_SIZE) pairs failure) :
    Completed src rows ((rows.take QUERY_BATCH_SIZE, batch) :: pairs) failure where
  chunks k pair hpair := by
    cases k with
    | zero =>
      rw [List.getElem?_cons_zero, Option.some.injEq] at hpair
      rw [← hpair, chunkAt_zero]
      exact ⟨.inl (by omega), rfl, hbatch⟩
    | succ k =>
      have hchunk := h.chunks k pair (by simpa using hpair)
      rwa [fetched_drop, chunkAt_drop] at hchunk
  stops := by
    have hstops := h.stops
    rwa [StopsAt, fetched_drop, chunkAt_drop] at hstops

/- The rest of the rows, when the result has ended. -/
theorem Completed.last {src : Source Row Schema Batch} {rows : List Row} {batch : Batch}
    (hne : rows ≠ []) (hshort : rows.length < QUERY_BATCH_SIZE) (hend : src.fetchError = none)
    (hbatch : src.toBatch rows = .ok batch) : Completed src rows [(rows, batch)] none where
  chunks k pair hpair := by
    cases k with
    | zero =>
      rw [List.getElem?_cons_zero, Option.some.injEq] at hpair
      rw [← hpair, chunkAt_short rows hshort, fetched_short _ rows hshort]
      exact ⟨⟨hne, hend⟩, rfl, hbatch⟩
    | succ k => simp at hpair
  stops := by
    refine .inl ⟨?_, hend.symm⟩
    simp only [Fetched, QUERY_BATCH_SIZE, List.length_singleton] at hshort ⊢
    omega

theorem flatten_chunks (rows : List Row) (n : Nat) :
    ((List.range n).map (chunkAt rows)).flatten = rows.take (QUERY_BATCH_SIZE * n) := by
  induction n with
  | zero => rfl
  | succ n ih =>
    rw [List.range_succ, List.map_append, List.flatten_append, ih, Nat.mul_succ, List.take_add]
    simp [chunkAt]

section
variable {src : Source Row Schema Batch} {rows : List Row} {pairs : List (List Row × Batch)}
  {failure : Option DbError} (h : Completed src rows pairs failure)
include h

theorem Completed.converts : ∀ pair ∈ pairs, src.toBatch pair.1 = .ok pair.2 := by
  intro pair hpair
  obtain ⟨k, hk⟩ := List.mem_iff_getElem?.mp hpair
  exact (h.chunks k pair hk).2.2

theorem Completed.parts : pairs.map Prod.fst = (List.range pairs.length).map (chunkAt rows) := by
  apply List.ext_getElem?
  intro k
  rw [List.getElem?_map, List.getElem?_map]
  cases hpair : pairs[k]? with
  | none =>
    rw [List.getElem?_eq_none_iff] at hpair
    rw [List.getElem?_eq_none (by simpa using hpair)]
    rfl
  | some pair =>
    have hlt := (List.getElem?_eq_some_iff.mp hpair).1
    rw [List.getElem?_range hlt, Option.map_some, Option.map_some, (h.chunks k pair hpair).2.1]

/- A chunk is full if there is another one or a failure behind it. -/
theorem Completed.full (k : Nat) (hk : k < pairs.length)
    (hmore : k + 1 < pairs.length ∨ failure ≠ none) :
    (chunkAt rows k).length = QUERY_BATCH_SIZE := by
  have hlength (hfull : QUERY_BATCH_SIZE * (k + 1) ≤ rows.length) :
      (chunkAt rows k).length = QUERY_BATCH_SIZE := by
    apply List.length_take_of_le
    rw [List.length_drop]
    simp only [QUERY_BATCH_SIZE] at hfull ⊢
    omega
  have hfetched (i : Nat) (hi : i < pairs.length) : Fetched src.fetchError rows i :=
    (h.chunks i pairs[i] (List.getElem?_eq_getElem hi)).1
  have hbehind (i : Nat) (hi : k < i) (hi' : Fetched src.fetchError rows i) :
      QUERY_BATCH_SIZE * (k + 1) ≤ rows.length := by
    simp only [Fetched, QUERY_BATCH_SIZE] at hi' ⊢
    omega
  rcases hmore with hnext | hfailure
  · exact hlength (hbehind (k + 1) (Nat.lt_succ_self k) (hfetched (k + 1) hnext))
  · rcases h.stops with ⟨_, hend⟩ | ⟨hstop, _⟩
    · rcases hfetched k hk with hfull | ⟨_, hnone⟩
      · exact hlength hfull
      · exact absurd (hend.trans hnone) hfailure
    · exact hlength (hbehind pairs.length hk hstop)

theorem Completed.chunked : Chunked rows (pairs.map Prod.fst) failure := by
  have hrows : (pairs.map Prod.fst).flatten =
      rows.take (QUERY_BATCH_SIZE * pairs.length) := by
    rw [h.parts, flatten_chunks]
  refine ⟨by rw [hrows, List.length_map], fun part hpart => ?_, fun part hpart => ?_,
    fun hfailure part hpart => ?_, fun hnone => ?_⟩
  · obtain ⟨pair, hpair, rfl⟩ := List.mem_map.mp hpart
    obtain ⟨k, hk⟩ := List.mem_iff_getElem?.mp hpair
    obtain ⟨hfetched, hchunk, _⟩ := h.chunks k pair hk
    rw [hchunk, chunkAt, List.length_take, List.length_drop]
    simp only [Fetched, QUERY_BATCH_SIZE] at hfetched ⊢
    omega
  · rw [h.parts, ← List.map_dropLast] at hpart
    obtain ⟨k, hk, rfl⟩ := List.mem_map.mp hpart
    obtain ⟨i, hi, rfl⟩ := List.mem_iff_getElem.mp hk
    rw [List.length_dropLast, List.length_range] at hi
    rw [List.getElem_dropLast, List.getElem_range]
    exact h.full i (by omega) (.inl (by omega))
  · rw [h.parts] at hpart
    obtain ⟨k, hk, rfl⟩ := List.mem_map.mp hpart
    exact h.full k (List.mem_range.mp hk) (.inr hfailure)
  · rw [hrows]
    apply List.take_of_length_le
    rcases h.stops with ⟨hstop, hend⟩ | ⟨_, err, _, herr⟩
    · rw [hnone] at hend
      rw [Fetched, not_or] at hstop
      exact Nat.le_of_not_lt fun hlt => hstop.2 ⟨hlt, hend.symm⟩
    · rw [hnone] at herr
      cases herr

end

/-! ### The worker sends the outcome -/

/- A chunk that is fetched and not converted. -/
theorem stopsAt_chunk (src : Source Row Schema Batch) (rows : List Row) (err : DbError)
    (hfull : QUERY_BATCH_SIZE ≤ rows.length)
    (hbatch : src.toBatch (rows.take QUERY_BATCH_SIZE) = .error err) :
    StopsAt src rows 0 (some err) :=
  .inr ⟨.inl (by omega), err, by rw [chunkAt_zero, hbatch], rfl⟩

/- How a result ends whose rows are less than a chunk. -/
theorem stopsAt_last (src : Source Row Schema Batch) (rows : List Row)
    (hshort : rows.length < QUERY_BATCH_SIZE) :
    (∀ err, src.fetchError = some err → StopsAt src rows 0 (some err)) ∧
      (src.fetchError = none → rows = [] → StopsAt src rows 0 none) ∧
      ∀ err, src.fetchError = none → rows ≠ [] → src.toBatch rows = .error err →
        StopsAt src rows 0 (some err) := by
  unfold StopsAt
  rw [fetched_short _ rows hshort, chunkAt_short rows hshort]
  refine ⟨fun err hend => .inl ⟨?_, hend.symm⟩, fun hend hnil => .inl ⟨?_, hend.symm⟩,
    fun err hend hne hbatch => .inr ⟨⟨hne, hend⟩, err, hbatch, rfl⟩⟩
  · rw [hend]
    exact fun hfetched => by cases hfetched.2
  · exact fun hfetched => hfetched.1 hnil

/- The loop after the schema was sent. -/
theorem outcome_loop (src : Source Row Schema Batch) (rows : List Row) :
    ∃ pairs failure, Completed src rows pairs failure ∧
      sentSchemas (fetchLoop src rows [] true) = [] ∧
      sentBatches (fetchLoop src rows [] true) =
        pairs.map (fun pair => .ok pair.2) ++ (failure.map .error).toList := by
  induction hn : rows.length using Nat.strongRecOn generalizing rows with
  | ind n ih =>
    by_cases hfull : QUERY_BATCH_SIZE ≤ rows.length
    · rw [fetchLoop_chunk src rows true hfull]
      cases hbatch : src.toBatch (rows.take QUERY_BATCH_SIZE) with
      | error err =>
        simp only [sendChunk, hbatch]
        exact ⟨[], some err, .nil (stopsAt_chunk src rows err hfull hbatch), rfl, rfl⟩
      | ok batch =>
        obtain ⟨pairs, failure, hcompleted, hschemas, hbatches⟩ :=
          ih (rows.drop QUERY_BATCH_SIZE).length (by
            rw [List.length_drop, ← hn]
            simp only [QUERY_BATCH_SIZE] at hfull ⊢
            omega) (rows.drop QUERY_BATCH_SIZE) rfl
        simp only [sendChunk, hbatch, if_true]
        exact ⟨_, failure, hcompleted.cons hfull hbatch, hschemas,
          by simp only [sentBatches, hbatches]; rfl⟩
    · have hshort : rows.length < QUERY_BATCH_SIZE := Nat.lt_of_not_le hfull
      obtain ⟨hfetch, hempty, hconvert⟩ := stopsAt_last src rows hshort
      rw [fetchLoop_last src rows true hshort]
      cases hend : src.fetchError with
      | some err => exact ⟨[], some err, .nil (hfetch err hend), rfl, rfl⟩
      | none =>
        by_cases hnil : rows = []
        · rw [hnil]
          exact ⟨[], none, .nil (hnil ▸ hempty hend hnil), rfl, rfl⟩
        · simp only [lastChunk, List.isEmpty_iff, hnil, if_false, sendChunk]
          cases hbatch : src.toBatch rows with
          | error err =>
            exact ⟨[], some err, .nil (hconvert err hend hnil hbatch), rfl, rfl⟩
          | ok batch => exact ⟨_, none, .last hnil hshort hend hbatch, rfl, rfl⟩

/-- The worker answers `query` once, and sends the items of the reader in order. -/
theorem outcome_streamWorker (src : Source Row Schema Batch) :
    ∃ pairs failure, Completed src src.rows pairs failure ∧
      sentSchemas (streamWorker src) = [answer src pairs failure] ∧
      sentBatches (streamWorker src) = items src pairs failure := by
  show ∃ pairs failure, _ ∧ sentSchemas (fetchLoop src src.rows [] false) = _ ∧
    sentBatches (fetchLoop src src.rows [] false) = _
  by_cases hfull : QUERY_BATCH_SIZE ≤ src.rows.length
  · rw [fetchLoop_chunk src src.rows false hfull]
    cases hbatch : src.toBatch (src.rows.take QUERY_BATCH_SIZE) with
    | error err =>
      simp only [sendChunk, hbatch]
      exact ⟨[], some err, .nil (stopsAt_chunk src src.rows err hfull hbatch), rfl, rfl⟩
    | ok batch =>
      obtain ⟨pairs, failure, hcompleted, hschemas, hbatches⟩ :=
        outcome_loop src (src.rows.drop QUERY_BATCH_SIZE)
      simp only [sendChunk, hbatch, Bool.false_eq_true, if_false]
      refine ⟨_, failure, hcompleted.cons hfull hbatch, ?_, ?_⟩
      · simp only [sentSchemas, hschemas]
        rfl
      · simp only [sentBatches, hbatches]
        rfl
  · have hshort : src.rows.length < QUERY_BATCH_SIZE := Nat.lt_of_not_le hfull
    obtain ⟨hfetch, hempty, hconvert⟩ := stopsAt_last src src.rows hshort
    rw [fetchLoop_last src src.rows false hshort]
    cases hend : src.fetchError with
    | some err => exact ⟨[], some err, .nil (hfetch err hend), rfl, rfl⟩
    | none =>
      by_cases hnil : src.rows = []
      · refine ⟨[], none, .nil (hempty hend hnil), ?_, ?_⟩
        · cases hschema : src.querySchema <;>
            simp [lastChunk, hnil, hschema, report, sentSchemas, answer]
        · cases hschema : src.querySchema <;>
            simp [lastChunk, hnil, hschema, report, sentBatches, items, Except.toOption]
      · simp only [lastChunk, List.isEmpty_iff, hnil, if_false, sendChunk]
        cases hbatch : src.toBatch src.rows with
        | error err => exact ⟨[], some err, .nil (hconvert err hend hnil hbatch), rfl, rfl⟩
        | ok batch => exact ⟨_, none, .last hnil hshort hend hbatch, rfl, rfl⟩

end FsspecDb.Stream
