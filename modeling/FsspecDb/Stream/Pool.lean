import FsspecDb.Lib.Transition
import FsspecDb.Stream.Worker

/-!
# One SQLite connection, one worker, one client

`SqliteDatabase::connect` builds a pool of exactly one connection. The system
below is that pool, the worker thread of a `query`, its two `sync_channel(1)`
and a client that first waits inside `query` for the schema and then receives
batches, drops the reader or calls another method of the database.
-/

namespace FsspecDb.Stream
open Transition

def CHANNEL_CAPACITY : Nat := 1

inductive Holder where
  | free
  | worker
  | client
  deriving Repr, DecidableEq

/-- Where the client is: inside `query`, between calls, inside `next`, waiting
for a connection inside another method, or holding one there. -/
inductive Phase where
  | query
  | idle
  | receiving
  | waiting
  | working
  deriving Repr, DecidableEq

/-- The pool, what the worker still has to do, the two channels with the state
of the batch receiver, the client, the schema of the reader that `query`
returned and what `next` has returned so far. -/
structure State (Schema Batch : Type) where
  pool : Holder
  worker : Program Schema Batch
  schemas : List (Except DbError Schema)
  batches : List (Except DbError Batch)
  reader : Bool
  phase : Phase
  schema : Option Schema
  received : List (Except DbError Batch)

inductive Action where
  | acquire | release | sendSchema | sendBatch | sendClosed
  | recvSchema | recvSchemaEnd
  | next | recv | recvEnd | dropReader
  | call | granted | again | returns
  deriving Repr, DecidableEq

variable {Row Schema Batch : Type}

/-- The state in which `query` has created the channels and spawned the thread. -/
def start (src : Source Row Schema Batch) : State Schema Batch :=
  ⟨.free, streamWorker src, [], [], true, .query, none, []⟩

/- The steps of the worker and of the client. A send needs room in the channel,
an acquire needs the connection to be free; neither is a step otherwise. -/
inductive Step : System (State Schema Batch) Action where
  | acquire {s : State Schema Batch} {p} (hw : s.worker = .acquire p) (hp : s.pool = .free) :
      Step s .acquire { s with pool := .worker, worker := p }
  | release {s : State Schema Batch} {p} (hw : s.worker = .release p) (hp : s.pool = .worker) :
      Step s .release { s with pool := .free, worker := p }
  | sendSchema {s : State Schema Batch} {item sent closed}
      (hw : s.worker = .sendSchema item sent closed) (hc : s.phase = .query)
      (hroom : s.schemas.length < CHANNEL_CAPACITY) :
      Step s .sendSchema { s with worker := sent, schemas := s.schemas ++ [item] }
  | schemaClosed {s : State Schema Batch} {item sent closed}
      (hw : s.worker = .sendSchema item sent closed) (hc : s.phase ≠ .query) :
      Step s .sendClosed { s with worker := closed }
  | sendBatch {s : State Schema Batch} {item sent closed}
      (hw : s.worker = .sendBatch item sent closed) (hr : s.reader = true)
      (hroom : s.batches.length < CHANNEL_CAPACITY) :
      Step s .sendBatch { s with worker := sent, batches := s.batches ++ [item] }
  | batchClosed {s : State Schema Batch} {item sent closed}
      (hw : s.worker = .sendBatch item sent closed) (hr : s.reader = false) :
      Step s .sendClosed { s with worker := closed }
  | recvSchema {s : State Schema Batch} {schema rest} (hc : s.phase = .query)
      (hs : s.schemas = .ok schema :: rest) :
      Step s .recvSchema { s with phase := .idle, schemas := rest, schema := some schema }
  | recvError {s : State Schema Batch} {err rest} (hc : s.phase = .query)
      (hs : s.schemas = .error err :: rest) :
      Step s .recvSchema { s with phase := .idle, schemas := rest, reader := false, batches := [] }
  | recvSchemaEnd {s : State Schema Batch} (hc : s.phase = .query) (hs : s.schemas = [])
      (hw : s.worker = .done) :
      Step s .recvSchemaEnd { s with phase := .idle, reader := false, batches := [] }
  | next {s : State Schema Batch} (hc : s.phase = .idle) (hr : s.reader = true) :
      Step s .next { s with phase := .receiving }
  | recv {s : State Schema Batch} {item rest} (hc : s.phase = .receiving)
      (hb : s.batches = item :: rest) :
      Step s .recv { s with phase := .idle, batches := rest, received := s.received ++ [item] }
  | recvEnd {s : State Schema Batch} (hc : s.phase = .receiving) (hb : s.batches = [])
      (hw : s.worker = .done) :
      Step s .recvEnd { s with phase := .idle }
  | dropReader {s : State Schema Batch} (hc : s.phase = .idle) (hr : s.reader = true) :
      Step s .dropReader { s with reader := false, batches := [] }
  | call {s : State Schema Batch} (hc : s.phase = .idle) :
      Step s .call { s with phase := .waiting }
  | granted {s : State Schema Batch} (hc : s.phase = .waiting) (hp : s.pool = .free) :
      Step s .granted { s with phase := .working, pool := .client }
  | again {s : State Schema Batch} (hc : s.phase = .working) (hp : s.pool = .client) :
      Step s .again { s with phase := .waiting, pool := .free }
  | returns {s : State Schema Batch} (hc : s.phase = .working) (hp : s.pool = .client) :
      Step s .returns { s with phase := .idle, pool := .free }

/-- The client waits for the connection that the worker holds, and the worker
is blocked sending a batch because the client has not received the last one. -/
def Deadlocked (s : State Schema Batch) : Prop :=
  s.phase = .waiting ∧ s.pool = .worker ∧ s.reader = true ∧
    s.batches.length = CHANNEL_CAPACITY ∧
    ∃ item sent closed, s.worker = .sendBatch item sent closed

/- What a program may still do with `n` batches sent: it never sends before the connection
is back, except for the first batch of all. -/
def SendsOneHeld : Bool → Nat → Program Schema Batch → Prop
  | _, _, .done => True
  | _, n, .acquire next => SendsOneHeld true n next
  | _, n, .release next => SendsOneHeld false n next
  | held, n, .sendSchema _ sent closed => SendsOneHeld held n sent ∧ SendsOneHeld held n closed
  | held, n, .sendBatch _ sent closed =>
    (held = true → n = 0) ∧ SendsOneHeld held (n + 1) sent ∧ SendsOneHeld held n closed

/-- The invariant: the batches under way are among those sent, and the rest of
the program sends at most the first of them while it holds the connection. -/
def OneHeld (s : State Schema Batch) : Prop :=
  ∃ n, s.batches.length ≤ n ∧ SendsOneHeld (decide (s.pool = .worker)) n s.worker

theorem oneHeld_step (s : State Schema Batch) (a : Action) (t : State Schema Batch)
    (h : Step s a t) (hs : OneHeld s) : OneHeld t := by
  obtain ⟨n, hn, hp⟩ := hs
  cases h with
  | acquire hw _ =>
    rw [hw] at hp
    exact ⟨n, hn, hp⟩
  | release hw _ =>
    rw [hw] at hp
    exact ⟨n, hn, hp⟩
  | sendSchema hw _ _ =>
    rw [hw] at hp
    exact ⟨n, hn, hp.1⟩
  | schemaClosed hw _ =>
    rw [hw] at hp
    exact ⟨n, hn, hp.2⟩
  | sendBatch hw _ _ =>
    rw [hw] at hp
    refine ⟨n + 1, ?_, hp.2.1⟩
    simp only [List.length_append, List.length_cons, List.length_nil]
    omega
  | batchClosed hw _ =>
    rw [hw] at hp
    exact ⟨n, hn, hp.2.2⟩
  | recvSchema _ _ => exact ⟨n, hn, hp⟩
  | recvError _ _ => exact ⟨n, Nat.zero_le n, hp⟩
  | recvSchemaEnd _ _ _ => exact ⟨n, Nat.zero_le n, hp⟩
  | next _ _ => exact ⟨n, hn, hp⟩
  | recv _ hb =>
    rw [hb, List.length_cons] at hn
    exact ⟨n, by dsimp only; omega, hp⟩
  | recvEnd _ _ _ => exact ⟨n, hn, hp⟩
  | dropReader _ _ => exact ⟨n, Nat.zero_le n, hp⟩
  | call _ => exact ⟨n, hn, hp⟩
  | granted _ hfree =>
    rw [hfree] at hp
    exact ⟨n, hn, hp⟩
  | again _ hclient =>
    rw [hclient] at hp
    exact ⟨n, hn, hp⟩
  | returns _ hclient =>
    rw [hclient] at hp
    exact ⟨n, hn, hp⟩

theorem not_deadlocked_of_oneHeld (s : State Schema Batch) (h : OneHeld s) : ¬ Deadlocked s := by
  intro hgiven
  obtain ⟨_, hpool, _, hfull, item, sent, closed, hw⟩ := hgiven
  obtain ⟨n, hn, hp⟩ := h
  rw [hw, hpool] at hp
  have hzero : n = 0 := hp.1 rfl
  simp only [CHANNEL_CAPACITY] at hfull
  omega

/- Without the connection the program may send what it likes. -/
theorem sendsOneHeld_report (n : Nat) (sent : Bool) (err : DbError) :
    SendsOneHeld false n (report sent err : Program Schema Batch) := by
  cases sent <;> simp [report, SendsOneHeld]

/- The end of the worker sends its batch before the connection is back. -/
theorem sendsOneHeld_lastChunk (src : Source Row Schema Batch) (n : Nat) (sent : Bool)
    (chunk : List Row) (hsent : sent = false → n = 0)
    (hchunk : chunk ≠ [] → n = 0 ∨ ∃ err, src.toBatch chunk = .error err) :
    SendsOneHeld true n (lastChunk src sent chunk) := by
  unfold lastChunk sendChunk
  split
  · cases sent with
    | true => trivial
    | false =>
      obtain rfl := hsent rfl
      cases src.querySchema <;> simp [SendsOneHeld, sendsOneHeld_report]
  · next hne =>
    cases hbatch : src.toBatch chunk with
    | error err => exact sendsOneHeld_report n sent err
    | ok batch =>
      rcases hchunk (by simpa using hne) with rfl | ⟨err, herr⟩
      · cases sent <;> simp [SendsOneHeld, sendsOneHeld_report]
      · rw [hbatch] at herr
        cases herr

/- A row loop that sends no batch, or its first one. -/
theorem sendsOneHeld_lastLoop (src : Source Row Schema Batch) (n : Nat) (sent : Bool)
    (rows : List Row) (hshort : rows.length < QUERY_BATCH_SIZE) (hsent : sent = false → n = 0)
    (hchunk : Fetched src.fetchError rows 0 →
      n = 0 ∨ ∃ err, src.toBatch (chunkAt rows 0) = .error err) :
    SendsOneHeld true n (fetchLoop src rows [] sent) := by
  rw [fetchLoop_last src rows sent hshort]
  rw [fetched_short _ rows hshort, chunkAt_short rows hshort] at hchunk
  cases hend : src.fetchError with
  | some err => exact sendsOneHeld_report n sent err
  | none =>
    exact sendsOneHeld_lastChunk src n sent rows hsent fun hne => hchunk ⟨hne, hend⟩

/- A row loop that does not get to the send of a batch. -/
theorem sendsOneHeld_noChunk (src : Source Row Schema Batch) (n : Nat) (sent : Bool)
    (rows : List Row) (hsent : sent = false → n = 0)
    (hchunk : Fetched src.fetchError rows 0 →
      ∃ err, src.toBatch (chunkAt rows 0) = .error err) :
    SendsOneHeld true n (fetchLoop src rows [] sent) := by
  by_cases hfull : QUERY_BATCH_SIZE ≤ rows.length
  · obtain ⟨err, herr⟩ := hchunk (.inl (by omega))
    rw [chunkAt_zero] at herr
    rw [fetchLoop_chunk src rows sent hfull]
    simp only [sendChunk, herr]
    exact sendsOneHeld_report n sent err
  · exact sendsOneHeld_lastLoop src n sent rows (Nat.lt_of_not_le hfull) hsent
      fun hfetched => .inr (hchunk hfetched)

/-- The worker gets to the send of a second chunk, a full one or the last: the result has it
and the backend can convert both. -/
def TwoChunks (src : Source Row Schema Batch) : Prop :=
  Fetched src.fetchError src.rows 1 ∧
    (∃ batch, src.toBatch (chunkAt src.rows 0) = .ok batch) ∧
    ∃ batch, src.toBatch (chunkAt src.rows 1) = .ok batch

theorem oneHeld_start (src : Source Row Schema Batch) (h : ¬ TwoChunks src) :
    OneHeld (start src) := by
  refine ⟨0, Nat.le_refl 0, ?_⟩
  show SendsOneHeld true 0 (fetchLoop src src.rows [] false)
  by_cases hfull : QUERY_BATCH_SIZE ≤ src.rows.length
  · cases hfirst : src.toBatch (src.rows.take QUERY_BATCH_SIZE) with
    | error err =>
      exact sendsOneHeld_noChunk src 0 false src.rows (fun _ => rfl)
        fun _ => ⟨err, by rw [chunkAt_zero, hfirst]⟩
    | ok batch =>
      -- the first batch may be sent while the connection is held, the second not
      have hrest : SendsOneHeld true 1
          (fetchLoop src (src.rows.drop QUERY_BATCH_SIZE) [] true) := by
        refine sendsOneHeld_noChunk src 1 true _ (fun hfalse => by cases hfalse) fun hlen => ?_
        rw [fetched_drop] at hlen
        rw [chunkAt_drop]
        cases hsecond : src.toBatch (chunkAt src.rows 1) with
        | error err => exact ⟨err, rfl⟩
        | ok second =>
          exact absurd ⟨hlen, ⟨batch, by rw [chunkAt_zero, hfirst]⟩, ⟨second, hsecond⟩⟩ h
      rw [fetchLoop_chunk src src.rows false hfull]
      simp only [sendChunk, hfirst, Bool.false_eq_true, if_false]
      exact ⟨⟨fun _ => rfl, hrest, trivial⟩, sendsOneHeld_report 0 false src.closed⟩
  · exact sendsOneHeld_lastLoop src 0 false src.rows (Nat.lt_of_not_le hfull) (fun _ => rfl)
      fun _ => .inl rfl

/- The next chunk that is fetched and converts is sent. -/
theorem fetchLoop_sends (src : Source Row Schema Batch) (rows : List Row) (batch : Batch)
    (hfetched : Fetched src.fetchError rows 0)
    (hbatch : src.toBatch (chunkAt rows 0) = .ok batch) :
    ∃ sent, fetchLoop src rows [] true = .sendBatch (.ok batch) sent (.release .done) := by
  by_cases hfull : QUERY_BATCH_SIZE ≤ rows.length
  · rw [chunkAt_zero] at hbatch
    rw [fetchLoop_chunk src rows true hfull]
    simp only [sendChunk, hbatch, if_true]
    exact ⟨_, rfl⟩
  · have hshort : rows.length < QUERY_BATCH_SIZE := Nat.lt_of_not_le hfull
    obtain ⟨hne, hend⟩ := (fetched_short _ rows hshort).mp hfetched
    rw [chunkAt_short rows hshort] at hbatch
    rw [fetchLoop_last src rows true hshort]
    simp only [hend, lastChunk, List.isEmpty_iff, hne, sendChunk, hbatch, if_true, if_false]
    exact ⟨_, rfl⟩

/- The run into the deadlock: the client takes the schema and, instead of the
first batch, asks for a connection; the worker goes on to its second batch. -/
theorem deadlock_of_twoChunks (src : Source Row Schema Batch) (h : TwoChunks src) :
    ∃ t, Reachable Step (start src) t ∧ Deadlocked t := by
  obtain ⟨hfetched, ⟨batch, hfirst⟩, ⟨second, hsecond⟩⟩ := h
  have hfull : QUERY_BATCH_SIZE ≤ src.rows.length := by
    simp only [Fetched, QUERY_BATCH_SIZE] at hfetched ⊢
    omega
  rw [chunkAt_zero] at hfirst
  rw [← fetched_drop] at hfetched
  rw [← chunkAt_drop] at hsecond
  obtain ⟨sent, hblocked⟩ := fetchLoop_sends src _ second hfetched hsecond
  have hprog : fetchLoop src src.rows [] false =
      .sendSchema (.ok (src.schema batch))
        (.sendBatch (.ok batch) (.sendBatch (.ok second) sent (.release .done)) (.release .done))
        (.release (report false src.closed)) := by
    rw [fetchLoop_chunk src src.rows false hfull]
    simp only [sendChunk, hfirst, Bool.false_eq_true, if_false, hblocked]
  have hreach : Reachable Step (start src)
      ⟨.worker, .sendBatch (.ok second) sent (.release .done), [], [.ok batch], true, .waiting,
        some (src.schema batch), []⟩ := by
    apply Reachable.head (.acquire rfl rfl)
    apply Reachable.head (.sendSchema hprog rfl Nat.zero_lt_one)
    apply Reachable.head (.recvSchema rfl rfl)
    apply Reachable.head (.sendBatch rfl rfl Nat.zero_lt_one)
    apply Reachable.head (.call rfl)
    exact Reachable.refl _ _
  exact ⟨_, hreach, rfl, rfl, rfl, rfl, _, _, _, rfl⟩

/-- No interleaving of one query's worker with the client's calls deadlocks on
the single connection exactly if the worker never sends a second batch. -/
theorem deadlockFree_iff (src : Source Row Schema Batch) :
    (∀ t, Reachable Step (start src) t → ¬ Deadlocked t) ↔ ¬ TwoChunks src := by
  constructor
  · intro hfree htwo
    obtain ⟨t, hreach, hdead⟩ := deadlock_of_twoChunks src htwo
    exact hfree t hreach hdead
  · intro htwo t hreach
    exact not_deadlocked_of_oneHeld t
      (hreach.invariant oneHeld_step (oneHeld_start src htwo))

end FsspecDb.Stream
