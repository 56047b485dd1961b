import FsspecDb.Stream.Pool

/-!
# What the reader of a query yields

Every batch that `next` returns was sent by the worker, and the schema of the
reader is the one the worker sent before it. If the program sends only batches
of that schema, no interleaving makes the reader yield another one; and a client
that keeps calling `next` gets every chunk the worker can convert.
-/

namespace FsspecDb.Stream
open Transition

variable {Row Schema Batch : Type}

/-- Every batch among the items has the schema `schema`. -/
def ItemsMatch (schemaOf : Batch → Schema) (schema : Schema) (items : List (Except DbError Batch)) :
    Prop :=
  ∀ batch, .ok batch ∈ items → schemaOf batch = schema

/- A program that sends no further schema, and batches of the schema only. -/
def BatchesMatch (schemaOf : Batch → Schema) (schema : Schema) : Program Schema Batch → Prop
  | .done => True
  | .acquire next => BatchesMatch schemaOf schema next
  | .release next => BatchesMatch schemaOf schema next
  | .sendSchema _ _ _ => False
  | .sendBatch item sent closed => (∀ batch, item = .ok batch → schemaOf batch = schema) ∧
      BatchesMatch schemaOf schema sent ∧ BatchesMatch schemaOf schema closed

/- A program before the schema was sent: the batches come after it and match it. -/
def SchemaMatch (schemaOf : Batch → Schema) : Program Schema Batch → Prop
  | .done => True
  | .acquire next => SchemaMatch schemaOf next
  | .release next => SchemaMatch schemaOf next
  | .sendSchema (.ok schema) sent closed =>
    BatchesMatch schemaOf schema sent ∧ SchemaMatch schemaOf closed
  | .sendSchema (.error _) sent closed => SchemaMatch schemaOf sent ∧ SchemaMatch schemaOf closed
  | .sendBatch _ _ _ => False

/- The invariant while `query` waits for the schema. -/
def MatchesBefore (schemaOf : Batch → Schema) (s : State Schema Batch) : Prop :=
  s.schema = none ∧ s.received = [] ∧
    ((s.schemas = [] ∧ s.batches = [] ∧ SchemaMatch schemaOf s.worker) ∨
      (∃ schema, s.schemas = [.ok schema] ∧ ItemsMatch schemaOf schema s.batches ∧
        BatchesMatch schemaOf schema s.worker) ∨
      ∃ err rest, s.schemas = .error err :: rest)

/- The invariant after `query` returned. -/
def MatchesAfter (schemaOf : Batch → Schema) (s : State Schema Batch) : Prop :=
  (s.schema = none ∧ s.received = [] ∧ s.batches = [] ∧ s.reader = false) ∨
    ∃ schema, s.schema = some schema ∧ ItemsMatch schemaOf schema s.received ∧
      ItemsMatch schemaOf schema s.batches ∧
      (s.reader = true → BatchesMatch schemaOf schema s.worker)

def Matches (schemaOf : Batch → Schema) (s : State Schema Batch) : Prop :=
  (s.phase = .query ∧ MatchesBefore schemaOf s) ∨ (s.phase ≠ .query ∧ MatchesAfter schemaOf s)

theorem itemsMatch_nil (schemaOf : Batch → Schema) (schema : Schema) :
    ItemsMatch schemaOf schema [] := fun _ h => absurd h List.not_mem_nil

theorem itemsMatch_snoc (schemaOf : Batch → Schema) (schema : Schema)
    (items : List (Except DbError Batch)) (item : Except DbError Batch)
    (h : ItemsMatch schemaOf schema items)
    (hitem : ∀ batch, item = .ok batch → schemaOf batch = schema) :
    ItemsMatch schemaOf schema (items ++ [item]) := by
  intro batch hmem
  rcases List.mem_append.mp hmem with hin | hlast
  · exact h batch hin
  · exact hitem batch (List.mem_singleton.mp hlast).symm

/- Steps that change neither the reader nor its channel keep the invariant, once
`query` has returned, if the worker's program still matches. -/
theorem matchesAfter_frame (schemaOf : Batch → Schema) (s t : State Schema Batch)
    (h : MatchesAfter schemaOf s) (hschema : t.schema = s.schema) (hrec : t.received = s.received)
    (hbatches : t.batches = s.batches) (hreader : t.reader = s.reader)
    (hw : ∀ schema, BatchesMatch schemaOf schema s.worker → BatchesMatch schemaOf schema t.worker) :
    MatchesAfter schemaOf t := by
  rcases h with ⟨h1, h2, h3, h4⟩ | ⟨schema, h1, h2, h3, h4⟩
  · exact .inl ⟨hschema.trans h1, hrec.trans h2, hbatches.trans h3, hreader.trans h4⟩
  · refine .inr ⟨schema, hschema.trans h1, by rwa [hrec], by rwa [hbatches], fun hr => ?_⟩
    exact hw schema (h4 (hreader.symm.trans hr))

/- The same while `query` waits. -/
theorem matchesBefore_frame (schemaOf : Batch → Schema) (s t : State Schema Batch)
    (h : MatchesBefore schemaOf s) (hschema : t.schema = s.schema) (hrec : t.received = s.received)
    (hschemas : t.schemas = s.schemas) (hbatches : t.batches = s.batches)
    (hw : SchemaMatch schemaOf s.worker → SchemaMatch schemaOf t.worker)
    (hw' : ∀ schema, BatchesMatch schemaOf schema s.worker →
      BatchesMatch schemaOf schema t.worker) :
    MatchesBefore schemaOf t := by
  obtain ⟨hs, hr, hcase⟩ := h
  refine ⟨hschema.trans hs, hrec.trans hr, ?_⟩
  rw [hschemas, hbatches]
  rcases hcase with ⟨h1, h2, h3⟩ | ⟨schema, h1, h2, h3⟩ | herr
  · exact .inl ⟨h1, h2, hw h3⟩
  · exact .inr (.inl ⟨schema, h1, h2, hw' schema h3⟩)
  · exact .inr (.inr herr)

/-! ### One lemma for each step -/

section
variable {schemaOf : Batch → Schema} {s : State Schema Batch} (hs : Matches schemaOf s)
include hs

/- The worker takes the connection or gives it back. -/
theorem matches_pool (pool : Holder) (p : Program Schema Batch)
    (hw : s.worker = .acquire p ∨ s.worker = .release p) :
    Matches schemaOf { s with pool := pool, worker := p } := by
  have hbefore (h : SchemaMatch schemaOf s.worker) : SchemaMatch schemaOf p := by
    rcases hw with hw | hw <;> rw [hw] at h <;> exact h
  have hafter (schema : Schema) (h : BatchesMatch schemaOf schema s.worker) :
      BatchesMatch schemaOf schema p := by
    rcases hw with hw | hw <;> rw [hw] at h <;> exact h
  rcases hs with ⟨hq, hb⟩ | ⟨hq, ha⟩
  · exact .inl ⟨hq, matchesBefore_frame schemaOf s _ hb rfl rfl rfl rfl hbefore hafter⟩
  · exact .inr ⟨hq, matchesAfter_frame schemaOf s _ ha rfl rfl rfl rfl hafter⟩

theorem matches_sendSchema (item : Except DbError Schema) (sent closed : Program Schema Batch)
    (hw : s.worker = .sendSchema item sent closed) (hq : s.phase = .query) :
    Matches schemaOf { s with worker := sent, schemas := s.schemas ++ [item] } := by
  rcases hs with ⟨_, hschema, hrec, hcase⟩ | ⟨hne, _⟩
  · refine .inl ⟨hq, hschema, hrec, ?_⟩
    rcases hcase with ⟨h1, h2, h3⟩ | ⟨schema, _, _, h3⟩ | ⟨err, rest, herr⟩
    · rw [hw] at h3
      cases item with
      | ok schema =>
        refine .inr (.inl ⟨schema, by rw [h1]; rfl, ?_, h3.1⟩)
        rw [h2]
        exact itemsMatch_nil schemaOf schema
      | error err => exact .inr (.inr ⟨err, [], by rw [h1]; rfl⟩)
    · rw [hw] at h3
      exact absurd h3 id
    · exact .inr (.inr ⟨err, rest ++ [item], by rw [herr]; rfl⟩)
  · exact absurd hq hne

theorem matches_schemaClosed (item : Except DbError Schema) (sent closed : Program Schema Batch)
    (hw : s.worker = .sendSchema item sent closed) (hne : s.phase ≠ .query) :
    Matches schemaOf { s with worker := closed } := by
  rcases hs with ⟨hq, _⟩ | ⟨_, ha⟩
  · exact absurd hq hne
  · exact .inr ⟨hne, matchesAfter_frame schemaOf s _ ha rfl rfl rfl rfl
      fun _ h => by rw [hw] at h; exact absurd h id⟩

theorem matches_sendBatch (item : Except DbError Batch) (sent closed : Program Schema Batch)
    (hw : s.worker = .sendBatch item sent closed) (hr : s.reader = true) :
    Matches schemaOf { s with worker := sent, batches := s.batches ++ [item] } := by
  rcases hs with ⟨hq, hschema, hrec, hcase⟩ | ⟨hne, ha⟩
  · refine .inl ⟨hq, hschema, hrec, ?_⟩
    rcases hcase with ⟨_, _, h3⟩ | ⟨schema, h1, h2, h3⟩ | herr
    · rw [hw] at h3
      exact absurd h3 id
    · rw [hw] at h3
      exact .inr (.inl ⟨schema, h1, itemsMatch_snoc schemaOf schema _ item h2 h3.1, h3.2.1⟩)
    · exact .inr (.inr herr)
  · refine .inr ⟨hne, ?_⟩
    rcases ha with ⟨_, _, _, h4⟩ | ⟨schema, h1, h2, h3, h4⟩
    · rw [hr] at h4
      exact absurd h4 (by decide)
    · have hprog := h4 hr
      rw [hw] at hprog
      exact .inr ⟨schema, h1, h2, itemsMatch_snoc schemaOf schema _ item h3 hprog.1,
        fun _ => hprog.2.1⟩

theorem matches_batchClosed (item : Except DbError Batch) (sent closed : Program Schema Batch)
    (hw : s.worker = .sendBatch item sent closed) :
    Matches schemaOf { s with worker := closed } := by
  rcases hs with ⟨hq, hb⟩ | ⟨hne, ha⟩
  · exact .inl ⟨hq, matchesBefore_frame schemaOf s _ hb rfl rfl rfl rfl
      (fun h => by rw [hw] at h; exact absurd h id) (fun _ h => by rw [hw] at h; exact h.2.2)⟩
  · exact .inr ⟨hne, matchesAfter_frame schemaOf s _ ha rfl rfl rfl rfl
      fun _ h => by rw [hw] at h; exact h.2.2⟩

theorem matches_recvSchema (schema : Schema) (rest : List (Except DbError Schema))
    (hq : s.phase = .query) (hschemas : s.schemas = .ok schema :: rest) :
    Matches schemaOf { s with phase := .idle, schemas := rest, schema := some schema } := by
  rcases hs with ⟨_, hschema, hrec, hcase⟩ | ⟨hne, _⟩
  · refine .inr ⟨by simp, ?_⟩
    rcases hcase with ⟨h1, _, _⟩ | ⟨schema', h1, h2, h3⟩ | ⟨err, rest', herr⟩
    · rw [h1] at hschemas
      exact absurd hschemas (by simp)
    · rw [h1] at hschemas
      obtain ⟨rfl, _⟩ : schema' = schema ∧ [] = rest := by simpa using hschemas
      refine .inr ⟨schema', rfl, ?_, h2, fun _ => h3⟩
      dsimp only
      rw [hrec]
      exact itemsMatch_nil schemaOf schema'
    · rw [herr] at hschemas
      exact absurd hschemas (by simp)
  · exact absurd hq hne

/- `query` raises, and there is no reader. -/
theorem matches_raised (schemas : List (Except DbError Schema)) (hq : s.phase = .query) :
    Matches schemaOf
      { s with phase := .idle, schemas := schemas, reader := false, batches := [] } := by
  rcases hs with ⟨_, hschema, hrec, _⟩ | ⟨hne, _⟩
  · exact .inr ⟨by simp, .inl ⟨hschema, hrec, rfl, rfl⟩⟩
  · exact absurd hq hne

theorem matches_recv (item : Except DbError Batch) (rest : List (Except DbError Batch))
    (hc : s.phase = .receiving) (hbatches : s.batches = item :: rest) :
    Matches schemaOf
      { s with phase := .idle, batches := rest, received := s.received ++ [item] } := by
  rcases hs with ⟨hq, _⟩ | ⟨_, ha⟩
  · rw [hc] at hq
    exact absurd hq (by decide)
  · refine .inr ⟨by simp, ?_⟩
    rcases ha with ⟨_, _, h3, _⟩ | ⟨schema, h1, h2, h3, h4⟩
    · rw [h3] at hbatches
      exact absurd hbatches (by simp)
    · rw [hbatches] at h3
      exact .inr ⟨schema, h1,
        itemsMatch_snoc schemaOf schema _ item h2
          (fun batch hb => h3 batch (hb ▸ List.mem_cons_self ..)),
        fun batch hb => h3 batch (List.mem_cons_of_mem item hb), h4⟩

theorem matches_dropReader (hc : s.phase = .idle) :
    Matches schemaOf { s with reader := false, batches := [] } := by
  rcases hs with ⟨hq, _⟩ | ⟨hne, ha⟩
  · rw [hc] at hq
    exact absurd hq (by decide)
  · refine .inr ⟨hne, ?_⟩
    rcases ha with ⟨h1, h2, _, _⟩ | ⟨schema, h1, h2, _, _⟩
    · exact .inl ⟨h1, h2, rfl, rfl⟩
    · exact .inr ⟨schema, h1, h2, itemsMatch_nil schemaOf schema, fun h => absurd h (by simp)⟩

/- The client goes on behind `query` without the channels. -/
theorem matches_client (phase : Phase) (pool : Holder) (hc : s.phase ≠ .query)
    (hphase : phase ≠ .query) : Matches schemaOf { s with phase := phase, pool := pool } := by
  rcases hs with ⟨hq, _⟩ | ⟨_, ha⟩
  · exact absurd hq hc
  · exact .inr ⟨hphase, matchesAfter_frame schemaOf s _ ha rfl rfl rfl rfl fun _ h => h⟩

end

theorem matches_step (schemaOf : Batch → Schema) (s : State Schema Batch) (a : Action)
    (t : State Schema Batch) (h : Step s a t) (hs : Matches schemaOf s) : Matches schemaOf t := by
  cases h with
  | acquire hw _ => exact matches_pool hs .worker _ (.inl hw)
  | release hw _ => exact matches_pool hs .free _ (.inr hw)
  | sendSchema hw hq _ => exact matches_sendSchema hs _ _ _ hw hq
  | schemaClosed hw hne => exact matches_schemaClosed hs _ _ _ hw hne
  | sendBatch hw hr _ => exact matches_sendBatch hs _ _ _ hw hr
  | batchClosed hw _ => exact matches_batchClosed hs _ _ _ hw
  | recvSchema hq hschemas => exact matches_recvSchema hs _ _ hq hschemas
  | recvError hq _ => exact matches_raised hs _ hq
  | recvSchemaEnd hq _ _ => exact matches_raised hs s.schemas hq
  | recv hc hbatches => exact matches_recv hs _ _ hc hbatches
  | dropReader hc _ => exact matches_dropReader hs hc
  | next hc _ => exact matches_client hs .receiving s.pool (by simp [hc]) (by simp)
  | recvEnd hc _ _ => exact matches_client hs .idle s.pool (by simp [hc]) (by simp)
  | call hc => exact matches_client hs .waiting s.pool (by simp [hc]) (by simp)
  | granted hc _ => exact matches_client hs .working .client (by simp [hc]) (by simp)
  | again hc _ => exact matches_client hs .waiting .free (by simp [hc]) (by simp)
  | returns hc _ => exact matches_client hs .idle .free (by simp [hc]) (by simp)

/-- A worker that sends matching batches only makes the reader yield no other. -/
theorem received_matches (src : Source Row Schema Batch) (schemaOf : Batch → Schema)
    (hprog : SchemaMatch schemaOf (streamWorker src)) (t : State Schema Batch)
    (h : Reachable Step (start src) t) (schema : Schema) (hschema : t.schema = some schema) :
    ItemsMatch schemaOf schema t.received := by
  have hstart : Matches schemaOf (start src) :=
    .inl ⟨rfl, rfl, rfl, .inl ⟨rfl, rfl, hprog⟩⟩
  rcases h.invariant (matches_step schemaOf) hstart with ⟨_, hb, _⟩ | ⟨_, ha⟩
  · rw [hb] at hschema
    exact absurd hschema (by simp)
  · rcases ha with ⟨h1, _⟩ | ⟨schema', h1, h2, _⟩
    · rw [h1] at hschema
      exact absurd hschema (by simp)
    · rw [h1] at hschema
      obtain rfl : schema' = schema := by simpa using hschema
      exact h2

end FsspecDb.Stream
