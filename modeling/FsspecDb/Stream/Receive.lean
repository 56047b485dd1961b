import FsspecDb.Stream.Outcome

/-!
# A caller that keeps receiving

Worker and caller take their steps in any order, and the caller does nothing but take the
schema and ask for the next item. It sees the outcome of the query, and it comes to an end.
-/

namespace FsspecDb.Stream
open Transition

variable {Row Schema Batch : Type}

/-- The caller neither drops the reader nor calls another method. -/
def keepsReceiving : Action → Bool
  | .dropReader | .call | .granted | .again | .returns => false
  | _ => true

abbrev Receiving : System (State Schema Batch) Action :=
  restrict Step fun _ action => keepsReceiving action = true

/-! ### Nothing is lost between worker and caller -/

/-- While `query` waits, what the channels hold and what is to be sent is the outcome. -/
structure Waiting (header : Except DbError Schema) (all : List (Except DbError Batch))
    (s : State Schema Batch) : Prop where
  phase : s.phase = .query
  reader : s.reader = true
  schema : s.schema = none
  received : s.received = []
  schemas : s.schemas ++ sentSchemas s.worker = [header]
  batches : s.batches ++ sentBatches s.worker = all
  first : SchemaFirst s.worker

/-- `query` has returned the error that was sent. -/
structure Failed (header : Except DbError Schema) (s : State Schema Batch) : Prop where
  phase : s.phase = .idle
  reader : s.reader = false
  schema : s.schema = none
  received : s.received = []
  header : ∃ err, header = .error err

/-- `query` has returned the reader; what was received, what is in the channel and what is
to be sent are the items. -/
structure Reading (header : Except DbError Schema) (all : List (Except DbError Batch))
    (s : State Schema Batch) : Prop where
  phase : s.phase = .idle ∨ s.phase = .receiving
  reader : s.reader = true
  schemas : sentSchemas s.worker = []
  header : ∃ schema, header = .ok schema ∧ s.schema = some schema
  items : s.received ++ s.batches ++ sentBatches s.worker = all

structure Delivering (header : Except DbError Schema) (all : List (Except DbError Batch))
    (s : State Schema Batch) : Prop where
  bracketed : Bracketed (decide (s.pool = .worker)) s.worker
  pool : s.pool ≠ .client
  place : Waiting header all s ∨ Failed header s ∨ Reading header all s

section
variable (header : Except DbError Schema) (all : List (Except DbError Batch))

theorem schemaFirst_of_sent_nil (program : Program Schema Batch) (h : sentSchemas program = []) :
    SchemaFirst program := by
  induction program with
  | done => trivial
  | acquire next ih => exact ih h
  | release next ih => exact ih h
  | sendSchema item sent closed => simp [sentSchemas] at h
  | sendBatch item sent closed => exact h

theorem Reading.not_query {s : State Schema Batch} (hs : Reading header all s) :
    s.phase ≠ .query := by
  rcases hs.phase with hphase | hphase <;> simp [hphase]

/- While the caller receives nothing else happens, so the pool is with the worker or free. -/
theorem bracketed_step (s : State Schema Batch) (a : Action) (t : State Schema Batch)
    (h : Receiving s a t) (hbracketed : Bracketed (decide (s.pool = .worker)) s.worker)
    (hpool : s.pool ≠ .client) :
    Bracketed (decide (t.pool = .worker)) t.worker ∧ t.pool ≠ .client := by
  obtain ⟨hstep, hlabel⟩ := h
  cases hstep with
  | acquire hw _ | release hw _ =>
    rw [hw] at hbracketed
    exact ⟨by simpa using hbracketed.2, by simp⟩
  | sendSchema hw _ _ | sendBatch hw _ _ =>
    rw [hw] at hbracketed
    exact ⟨hbracketed.1, hpool⟩
  | schemaClosed hw _ | batchClosed hw _ =>
    rw [hw] at hbracketed
    exact ⟨hbracketed.2, hpool⟩
  | recvSchema _ _ | recvError _ _ | recvSchemaEnd _ _ _ | next _ _ | recv _ _ | recvEnd _ _ _ =>
    exact ⟨hbracketed, hpool⟩
  | dropReader _ _ | call _ | granted _ _ | again _ _ | returns _ _ =>
    exact absurd hlabel (by simp [keepsReceiving])

theorem waiting_step (s : State Schema Batch) (a : Action) (t : State Schema Batch)
    (h : Receiving s a t) (hs : Waiting header all s) :
    Waiting header all t ∨ Failed header t ∨ Reading header all t := by
  obtain ⟨hstep, hlabel⟩ := h
  have hschemas := hs.schemas
  have hfirst := hs.first
  cases hstep with
  | acquire hw _ | release hw _ =>
    rw [hw] at hfirst
    exact .inl { hs with
      schemas := by simpa [hw, sentSchemas] using hschemas
      batches := by simpa [hw, sentBatches] using hs.batches
      first := hfirst }
  | sendSchema hw _ _ | sendBatch hw _ _ =>
    rw [hw] at hfirst
    exact .inl { hs with
      schemas := by simpa [hw, sentSchemas] using hschemas
      batches := by simpa [hw, sentBatches] using hs.batches
      first := schemaFirst_of_sent_nil _ hfirst }
  | schemaClosed _ hc => exact absurd hs.phase hc
  | batchClosed _ hr => exact absurd (hs.reader.symm.trans hr) (by simp)
  | recvSchema _ hitem =>
    simp only [hitem, List.cons_append, List.cons.injEq, List.append_eq_nil_iff] at hschemas
    obtain ⟨hheader, _, hsent⟩ := hschemas
    refine .inr (.inr ⟨.inl rfl, hs.reader, hsent, ⟨_, hheader.symm, rfl⟩, ?_⟩)
    simpa [hs.received] using hs.batches
  | recvError _ hitem =>
    simp only [hitem, List.cons_append, List.cons.injEq] at hschemas
    exact .inr (.inl ⟨rfl, rfl, hs.schema, hs.received, _, hschemas.1.symm⟩)
  | recvSchemaEnd _ hnil hw => simp [hnil, hw, sentSchemas] at hschemas
  | next hc _ | recv hc _ | recvEnd hc _ _ => exact absurd (hs.phase.symm.trans hc) (by simp)
  | dropReader _ _ | call _ | granted _ _ | again _ _ | returns _ _ =>
    exact absurd hlabel (by simp [keepsReceiving])

theorem failed_step (s : State Schema Batch) (a : Action) (t : State Schema Batch)
    (h : Receiving s a t) (hs : Failed header s) : Failed header t := by
  obtain ⟨hstep, hlabel⟩ := h
  cases hstep with
  | acquire _ _ | release _ _ | schemaClosed _ _ | batchClosed _ _ => exact { hs with }
  | sendSchema _ hc _ | recvSchema hc _ | recvError hc _ | recvSchemaEnd hc _ _ | recv hc _
  | recvEnd hc _ _ => exact absurd (hs.phase.symm.trans hc) (by simp)
  | sendBatch _ hr _ | next _ hr => exact absurd (hs.reader.symm.trans hr) (by simp)
  | dropReader _ _ | call _ | granted _ _ | again _ _ | returns _ _ =>
    exact absurd hlabel (by simp [keepsReceiving])

theorem reading_step (s : State Schema Batch) (a : Action) (t : State Schema Batch)
    (h : Receiving s a t) (hs : Reading header all s) : Reading header all t := by
  obtain ⟨hstep, hlabel⟩ := h
  have hsent := hs.schemas
  cases hstep with
  | acquire hw _ | release hw _ | sendBatch hw _ _ =>
    exact { hs with
      schemas := by simpa [hw, sentSchemas] using hsent
      items := by simpa [hw, sentBatches] using hs.items }
  | schemaClosed hw _ => simp [hw, sentSchemas] at hsent
  | batchClosed _ hr => exact absurd (hs.reader.symm.trans hr) (by simp)
  | sendSchema _ hc _ | recvSchema hc _ | recvError hc _ | recvSchemaEnd hc _ _ =>
    exact absurd hc hs.not_query
  | next _ _ => exact { hs with phase := .inr rfl }
  | recv _ hb =>
    exact { hs with
      phase := .inl rfl
      items := by simpa [hb] using hs.items }
  | recvEnd _ _ _ => exact { hs with phase := .inl rfl }
  | dropReader _ _ | call _ | granted _ _ | again _ _ | returns _ _ =>
    exact absurd hlabel (by simp [keepsReceiving])

theorem delivering_step (s : State Schema Batch) (a : Action) (t : State Schema Batch)
    (h : Receiving s a t) (hs : Delivering header all s) : Delivering header all t := by
  obtain ⟨hbracketed, hpool⟩ := bracketed_step s a t h hs.bracketed hs.pool
  refine ⟨hbracketed, hpool, ?_⟩
  rcases hs.place with hwaiting | hfailed | hreading
  · exact waiting_step header all s a t h hwaiting
  · exact .inr (.inl (failed_step header s a t h hfailed))
  · exact .inr (.inr (reading_step header all s a t h hreading))

/- A worker that is to take or give back the connection can do so. -/
theorem pool_progress (s : State Schema Batch) (next : Program Schema Batch)
    (hw : s.worker = .acquire next ∨ s.worker = .release next)
    (hbracketed : Bracketed (decide (s.pool = .worker)) s.worker) (hpool : s.pool ≠ .client) :
    ∃ a t, Receiving s a t := by
  rcases hw with hw | hw
  · rw [hw] at hbracketed
    have hfree : s.pool = .free := by
      cases hp : s.pool with
      | free => rfl
      | worker => simp [hp, Bracketed] at hbracketed
      | client => exact absurd hp hpool
    exact ⟨_, _, .acquire hw hfree, rfl⟩
  · rw [hw] at hbracketed
    exact ⟨_, _, .release hw (by simpa using hbracketed.1), rfl⟩

/-- Worker or caller can take a step, unless `query` has failed. -/
theorem delivering_progress (s : State Schema Batch) (hs : Delivering header all s) :
    Failed header s ∨ ∃ a t, Receiving s a t := by
  obtain ⟨hbracketed, hpool, hplace⟩ := hs
  have hpoolStep (next : Program Schema Batch)
      (hw : s.worker = .acquire next ∨ s.worker = .release next) :=
    pool_progress s next hw hbracketed hpool
  rcases hplace with h | h | h
  · refine .inr ?_
    cases hs : s.schemas with
    | cons item rest =>
      cases item with
      | ok schema => exact ⟨_, _, .recvSchema h.phase hs, rfl⟩
      | error err => exact ⟨_, _, .recvError h.phase hs, rfl⟩
    | nil =>
      have hschemas := h.schemas
      have hfirst := h.first
      cases hw : s.worker with
      | done => simp [hs, hw, sentSchemas] at hschemas
      | acquire next => exact hpoolStep next (.inl hw)
      | release next => exact hpoolStep next (.inr hw)
      | sendSchema item sent closed =>
        exact ⟨_, _, .sendSchema hw h.phase (by simp [hs, CHANNEL_CAPACITY]), rfl⟩
      | sendBatch item sent closed =>
        rw [hw] at hfirst
        have hsent : sentSchemas sent = [] := hfirst
        simp [hs, hw, sentSchemas, hsent] at hschemas
  · exact .inl h
  · refine .inr ?_
    rcases h.phase with hc | hc
    · exact ⟨_, _, .next hc h.reader, rfl⟩
    · cases hb : s.batches with
      | cons item rest => exact ⟨_, _, .recv hc hb, rfl⟩
      | nil =>
        cases hw : s.worker with
        | done => exact ⟨_, _, .recvEnd hc hb hw, rfl⟩
        | acquire next => exact hpoolStep next (.inl hw)
        | release next => exact hpoolStep next (.inr hw)
        | sendSchema item sent closed =>
          have hsent := h.schemas
          simp [hw, sentSchemas] at hsent
        | sendBatch item sent closed =>
          exact ⟨_, _, .sendBatch hw h.reader (by simp [hb, CHANNEL_CAPACITY]), rfl⟩

/- Past the end of the reader every item has been received. -/
theorem received_initial (s : State Schema Batch) (hs : Delivering header all s) :
    s.received <+: all := by
  rcases hs.place with h | h | h
  · simp [h.received]
  · simp [h.received]
  · rw [← h.items, List.append_assoc]
    exact List.prefix_append ..

theorem received_mono (s : State Schema Batch) (a : Action) (t : State Schema Batch)
    (h : Receiving s a t) : s.received <+: t.received := by
  obtain ⟨hstep, hlabel⟩ := h
  cases hstep with
  | recv hc hb => exact List.prefix_append ..
  | _ => exact List.prefix_refl _

/- `query` does not find the schema channel closed without an answer. -/
theorem query_is_answered (s t : State Schema Batch) (hs : Delivering header all s) :
    ¬ Receiving s .recvSchemaEnd t := by
  intro hgiven
  obtain ⟨hstep, _⟩ := hgiven
  cases hstep with
  | recvSchemaEnd hc hnil hw =>
    rcases hs.place with h | h | h
    · have hwaiting := h.schemas
      simp [hnil, hw, sentSchemas] at hwaiting
    · exact absurd (h.phase.symm.trans hc) (by simp)
    · exact absurd hc h.not_query

/- The reader ends when every item was received. -/
theorem reader_ends_with_all (s t : State Schema Batch) (hs : Delivering header all s)
    (h : Receiving s .recvEnd t) : (∃ schema, header = .ok schema) ∧ t.received = all := by
  obtain ⟨hstep, _⟩ := h
  cases hstep with
  | recvEnd hc hb hw =>
    rcases hs.place with h | h | h
    · exact absurd (h.phase.symm.trans hc) (by simp)
    · exact absurd (h.phase.symm.trans hc) (by simp)
    · obtain ⟨schema, hheader, _⟩ := h.header
      exact ⟨⟨schema, hheader⟩, by simpa [hb, hw, sentBatches] using h.items⟩

end

/-! ### The run of a receiving caller is bounded -/

/-- What is still to be done before the end: effects of the worker, items in the channels,
and the steps of the caller between them. -/
def pending (s : State Schema Batch) : Nat :=
  3 * work s.worker + 2 * (s.schemas.length + s.batches.length) +
    match s.phase with
    | .query => 2
    | .idle => 1
    | _ => 0

theorem pending_step (s : State Schema Batch) (a : Action) (t : State Schema Batch)
    (h : Receiving s a t) (ha : a ≠ .recvEnd) : pending t < pending s := by
  obtain ⟨hstep, hlabel⟩ := h
  cases hstep with
  | acquire hw _ | release hw _ | schemaClosed hw _ | batchClosed hw _ =>
    simp only [pending, hw, work]
    omega
  | sendSchema hw _ _ | sendBatch hw _ _ =>
    simp only [pending, hw, work, List.length_append, List.length_singleton]
    omega
  | recvSchema hc hs | recvError hc hs =>
    simp only [pending, hc, hs, List.length_cons, List.length_nil]
    omega
  | recvSchemaEnd hc hs hw =>
    simp only [pending, hc, hs, List.length_nil]
    omega
  | next hc _ =>
    simp only [pending, hc]
    omega
  | recv hc hb =>
    simp only [pending, hc, hb, List.length_cons]
    omega
  | recvEnd _ _ _ => exact absurd rfl ha
  | dropReader _ _ | call _ | granted _ _ | again _ _ | returns _ _ =>
    exact absurd hlabel (by simp [keepsReceiving])

theorem run_bounded (s t : State Schema Batch) (as : List Action) (h : Run Receiving s as t)
    (hend : .recvEnd ∉ as) : as.length + pending t ≤ pending s := by
  induction h with
  | nil => simp
  | cons hfirst _ ih =>
    rw [List.mem_cons, not_or] at hend
    have hstep := pending_step _ _ _ hfirst fun heq => hend.1 heq.symm
    have hrest := ih hend.2
    rw [List.length_cons]
    omega

/-! ### What the caller observes -/

theorem schemaFirst_fetchLoop (src : Source Row Schema Batch) (rows chunk : List Row) :
    SchemaFirst (fetchLoop src rows chunk false) := by
  induction rows generalizing chunk with
  | nil =>
    unfold fetchLoop
    cases src.fetchError with
    | some err => rfl
    | none =>
      show SchemaFirst (lastChunk src false chunk)
      simp only [lastChunk, Bool.false_eq_true, if_false]
      split_ifs
      · cases src.querySchema <;> rfl
      · unfold sendChunk
        cases src.toBatch chunk <;> rfl
  | cons row rest ih =>
    rw [fetchLoop_cons]
    split_ifs
    · unfold sendChunk
      cases src.toBatch (chunk ++ [row]) with
      | error err => rfl
      | ok batch =>
        obtain ⟨_, _, _, hschemas, _⟩ := outcome_loop src rest
        exact hschemas
    · exact ih (chunk ++ [row])

/-- What the caller of `query` sees in a run: `header` is the answer of `query`, `all` are the
items of the reader. -/
structure Observes (header : Except DbError Schema) (all : List (Except DbError Batch))
    (as : List Action) (t : State Schema Batch) : Prop where
  waiting : t.phase = .query → t.received = [] ∧ ∀ item ∈ t.schemas, item = header
  answered : .recvSchemaEnd ∉ as
  failed : ∀ err, header = .error err → t.phase ≠ .query →
    t.schema = none ∧ t.reader = false ∧ t.received = []
  returned : ∀ schema, header = .ok schema → t.phase ≠ .query →
    t.schema = some schema ∧ t.received <+: all
  ended : .recvEnd ∈ as → (∃ schema, header = .ok schema) ∧ t.received = all
  goesOn : (t.phase ≠ .query ∧ t.schema = none) ∨ .recvEnd ∈ as ∨ ∃ a u, Receiving t a u

theorem start_delivering (src : Source Row Schema Batch) (header : Except DbError Schema)
    (all : List (Except DbError Batch)) (hschemas : sentSchemas (streamWorker src) = [header])
    (hbatches : sentBatches (streamWorker src) = all) : Delivering header all (start src) :=
  ⟨⟨rfl, bracketed_fetchLoop src src.rows [] false⟩, by simp [start],
    .inl ⟨rfl, rfl, rfl, rfl, hschemas, hbatches, schemaFirst_fetchLoop src src.rows []⟩⟩

section
variable (header : Except DbError Schema) (all : List (Except DbError Batch))

theorem run_delivers (s t : State Schema Batch) (as : List Action) (h : Run Receiving s as t)
    (hs : Delivering header all s) :
    Delivering header all t ∧ .recvSchemaEnd ∉ as ∧
      (.recvEnd ∈ as → (∃ schema, header = .ok schema) ∧ t.received = all) := by
  refine Run.history_invariant (I := fun as s => Delivering header all s ∧
    Action.recvSchemaEnd ∉ as ∧
      (Action.recvEnd ∈ as → (∃ schema, header = .ok schema) ∧ s.received = all)) ?_ h
    ⟨hs, by simp, by simp⟩
  intro as s a t hstep hgiven
  obtain ⟨hs, hanswered, hended⟩ := hgiven
  have ht := delivering_step header all s a t hstep hs
  refine ⟨ht, ?_, ?_⟩
  · rw [List.mem_append, List.mem_singleton, not_or]
    refine ⟨hanswered, ?_⟩
    intro heq
    subst heq
    exact query_is_answered header all s t hs hstep
  · intro hmem
    rcases List.mem_append.mp hmem with hbefore | hnow
    · obtain ⟨hheader, hall⟩ := hended hbefore
      refine ⟨hheader, (received_initial header all t ht).eq_of_length_le ?_⟩
      have hmono := received_mono s a t hstep
      rw [hall] at hmono
      exact hmono.length_le
    · rw [List.mem_singleton] at hnow
      subst hnow
      exact reader_ends_with_all header all s t hs hstep

theorem run_observes (s t : State Schema Batch) (as : List Action) (h : Run Receiving s as t)
    (hs : Delivering header all s) : Observes header all as t := by
  obtain ⟨ht, hanswered, hended⟩ := run_delivers header all s t as h hs
  refine ⟨fun hphase => ?_, hanswered, fun err herr hphase => ?_, fun schema hok hphase => ?_,
    hended, ?_⟩
  · rcases ht.place with h | h | h
    · refine ⟨h.received, fun item hitem => ?_⟩
      have hmem : item ∈ t.schemas ++ sentSchemas t.worker := List.mem_append_left _ hitem
      rw [h.schemas] at hmem
      exact List.mem_singleton.mp hmem
    · exact absurd (h.phase.symm.trans hphase) (by simp)
    · exact absurd hphase h.not_query
  · rcases ht.place with h | h | h
    · exact absurd h.phase hphase
    · exact ⟨h.schema, h.reader, h.received⟩
    · obtain ⟨schema, hheader, _⟩ := h.header
      rw [herr] at hheader
      cases hheader
  · rcases ht.place with h | h | h
    · exact absurd h.phase hphase
    · obtain ⟨err, hheader⟩ := h.header
      rw [hok] at hheader
      cases hheader
    · obtain ⟨schema', hheader, hschema⟩ := h.header
      rw [hok] at hheader
      cases hheader
      exact ⟨hschema, received_initial header all t ht⟩
  · rcases delivering_progress header all t ht with h | h
    · exact .inl ⟨by simp [h.phase], h.schema⟩
    · exact .inr (.inr h)

end

/-- The outcome of a source and what the caller sees of it, in a bounded number of steps. -/
theorem source_delivers (src : Source Row Schema Batch) :
    ∃ pairs failure, Completed src src.rows pairs failure ∧
      (∃ bound, ∀ as t, Run Receiving (start src) as t → .recvEnd ∉ as → as.length ≤ bound) ∧
      ∀ as t, Run Receiving (start src) as t →
        Observes (answer src pairs failure) (items src pairs failure) as t := by
  obtain ⟨pairs, failure, hcompleted, hschemas, hbatches⟩ := outcome_streamWorker src
  have hstart := start_delivering src _ _ hschemas hbatches
  refine ⟨pairs, failure, hcompleted, ⟨pending (start src), fun as t hrun hend => ?_⟩,
    fun as t hrun => run_observes _ _ _ t as hrun hstart⟩
  exact Nat.le_trans (Nat.le_add_right _ _) (run_bounded _ t as hrun hend)

end FsspecDb.Stream
