import FsspecDb.Insert.Stored

/-!
# One transaction

A backend is sound if the statement that empties the table does so, and if a batch that
was written is in the table row by row. An insert of a sound backend takes all of the
batches or none of them.
-/

namespace FsspecDb.Insert
open Text Fs Checked

variable {V Arg : Type}

def kept (mode : InsertMode) (rows : List (List V)) : List (List V) :=
  match mode with
  | .Append => rows
  | .Truncate => []

/-- The outcome of an insert into `table`: an error and the tables as they were, or the
rows of all batches after those that the mode keeps, and their number. -/
inductive AllOrNothing (engine : Engine V Arg) (denotes : Arg → CellValue → Prop)
    (tables : Tables V) (schema relation : Str) (table : Table V) (batches : BatchReader)
    (mode : InsertMode) : Except DbError Nat × Tables V → Prop where
  | nothing (err : DbError) (after : Tables V) (hafter : after = tables) :
      AllOrNothing engine denotes tables schema relation table batches mode (.error err, after)
  | all (inserted : Nat) (after : Tables V) (read : List RecordBatch) (rows : List (List V))
      (hread : batches = read.map .ok)
      (hrows : List.Forall₂ (StoredRow engine denotes table.columns) (read.flatMap batchRows) rows)
      (hafter : after = tables.set schema relation
        { table with rows := kept mode table.rows ++ rows })
      (hinserted : inserted = (read.map RecordBatch.numRows).sum) :
      AllOrNothing engine denotes tables schema relation table batches mode (.ok inserted, after)

/-! ### What a backend has to do -/

/-- The statement that empties the table empties it, and a batch that was written is
stored; neither commits. -/
structure Sound (backend : Backend V Arg) (engine : Engine V Arg)
    (denotes : Arg → CellValue → Prop) : Prop where
  empties : ∀ (schema relation text : Str) (tables : Tables V) (table : Table V),
    Sql.qualifiedName backend.dialect schema relation = .ok text →
    tables schema relation = some table →
    ∃ statement, Sql.parseStatement engine.rules.quote (backend.truncateVerb ++ text) =
        some statement ∧
      ∀ outcome ∈ engine.runStatement tables statement [],
        outcome.2 = tables.set schema relation { table with rows := [] }
  keeps : ∀ (session : Session V) (schema relation : Str) (batch : RecordBatch),
    (backend.write engine session schema relation batch).2.committed = session.committed
  writes : ∀ (session session' : Session V) (schema relation : Str) (batch : RecordBatch)
    (table : Table V) (affected : Nat), session.working schema relation = some table →
    ((batchColumns batch).map toAsciiLowercase).Nodup →
    backend.write engine session schema relation batch = (.ok affected, session') →
    ∃ rows, session'.working =
        session.working.set schema relation { table with rows := table.rows ++ rows } ∧
      List.Forall₂ (StoredRow engine denotes table.columns) (batchRows batch) rows ∧
      affected = batch.numRows

section
variable (backend : Backend V Arg) (engine : Engine V Arg) (schema relation : Str)

theorem tableColumns_committed (session : Session V) :
    (tableColumns backend engine session schema relation).2.committed = session.committed := by
  unfold tableColumns
  split
  · rfl
  · split
    · rfl
    · dsimp only
      split <;> rfl

theorem truncateTable_committed (session : Session V) (mode : InsertMode) :
    (truncateTable backend engine session schema relation mode).2.committed =
      session.committed := by
  cases mode with
  | Append => rfl
  | Truncate =>
    unfold truncateTable
    dsimp only
    split
    · rfl
    · exact execute_committed ..

end

section
variable {backend : Backend V Arg} {engine : Engine V Arg} {denotes : Arg → CellValue → Prop}
variable {schema relation : Str}

theorem truncateTable_ok (hsound : Sound backend engine denotes) {session session' : Session V}
    {mode : InsertMode} {table : Table V} (htable : session.working schema relation = some table)
    (h : truncateTable backend engine session schema relation mode = (.ok (), session')) :
    session'.working =
      session.working.set schema relation { table with rows := kept mode table.rows } := by
  cases mode with
  | Append =>
    rw [truncateTable, Prod.mk.injEq] at h
    rw [← h.2]
    exact (Tables.set_eq_self _ _ _ _ htable).symm
  | Truncate =>
    unfold truncateTable at h
    dsimp only at h
    split at h
    · simp at h
    · next text hname =>
      obtain ⟨statement, hparse, hrun⟩ :=
        hsound.empties schema relation text session.working table hname htable
      rw [Prod.mk.injEq] at h
      obtain ⟨affected, hok, _⟩ := map_eq_ok_iff.mp h.1
      have hexecute : engine.execute session (backend.truncateVerb ++ text) [] =
          (.ok affected, session') := Prod.ext hok h.2
      exact hrun _ (execute_ok hparse hexecute)

theorem insertBatches_committed (hsound : Sound backend engine denotes) (schema relation : Str)
    (validColumns : List Str) (batches : BatchReader) (session : Session V) (inserted : Nat) :
    (insertBatches backend engine schema relation validColumns batches session
      inserted).2.committed = session.committed := by
  induction batches generalizing session inserted with
  | nil => rfl
  | cons item batches ih =>
    cases item with
    | error msg => rfl
    | ok batch =>
      rw [insertBatches]
      split
      · exact ih session inserted
      · split
        · rfl
        · have hkeeps := hsound.keeps session schema relation batch
          split
          · next hwrite => rw [hwrite] at hkeeps; exact hkeeps
          · next hwrite => rw [hwrite] at hkeeps; rw [ih, hkeeps]

/-- The loop: when it ends well, the rows of the batches stand behind the ones that were
there. -/
theorem insertBatches_ok (hsound : Sound backend engine denotes) (validColumns : List Str)
    (batches : BatchReader) (session session' : Session V) (inserted total : Nat)
    (table : Table V) (htable : session.working schema relation = some table)
    (hnames : ∀ batch, .ok batch ∈ batches →
      ((batchColumns batch).map toAsciiLowercase).Nodup)
    (h : insertBatches backend engine schema relation validColumns batches session inserted =
      (.ok total, session')) :
    ∃ (read : List RecordBatch) (rows : List (List V)), batches = read.map .ok ∧
      List.Forall₂ (StoredRow engine denotes table.columns) (read.flatMap batchRows) rows ∧
      session'.working =
        session.working.set schema relation { table with rows := table.rows ++ rows } ∧
      total = inserted + (read.map RecordBatch.numRows).sum := by
  induction batches generalizing session inserted table with
  | nil =>
    rw [insertBatches, Prod.mk.injEq] at h
    refine ⟨[], [], rfl, .nil, ?_, (Except.ok.inj h.1).symm⟩
    rw [← h.2, List.append_nil, Tables.set_eq_self _ _ _ _ htable]
  | cons item batches ih =>
    cases item with
    | error msg => simp [insertBatches] at h
    | ok batch =>
      have hrest : ∀ batch, .ok batch ∈ batches →
          ((batchColumns batch).map toAsciiLowercase).Nodup :=
        fun other hother => hnames other (List.mem_cons_of_mem _ hother)
      rw [insertBatches] at h
      split at h
      · next hempty =>
        -- no rows, nothing to write
        obtain ⟨read, rows, rfl, hstored, hworking, htotal⟩ :=
          ih session inserted table htable hrest h
        have hnone : batchRows batch = [] :=
          List.length_eq_zero_iff.mp ((batchRows_length batch).trans hempty)
        refine ⟨batch :: read, rows, rfl, ?_, hworking, ?_⟩
        · rw [List.flatMap_cons, hnone]
          exact hstored
        · rw [List.map_cons, List.sum_cons, hempty, Nat.zero_add]
          exact htotal
      · split at h
        · simp at h
        · split at h
          · simp at h
          · next affected middle hwrite =>
            obtain ⟨first, hmiddle, hfirst, haffected⟩ := hsound.writes session middle schema
              relation batch table affected htable (hnames batch (List.mem_cons_self ..)) hwrite
            obtain ⟨read, rows, rfl, hstored, hworking, htotal⟩ := ih middle (inserted + affected)
              { table with rows := table.rows ++ first } (by rw [hmiddle]; simp) hrest h
            refine ⟨batch :: read, first ++ rows, rfl, ?_, ?_, ?_⟩
            · rw [List.flatMap_cons]
              exact List.rel_append hfirst hstored
            · rw [hworking, hmiddle, Tables.set_set, List.append_assoc]
            · rw [htotal, haffected, List.map_cons, List.sum_cons, Nat.add_assoc]

theorem insertWith_allOrNothing (hsound : Sound backend engine denotes) (tables : Tables V)
    (table : Table V) (htable : tables schema relation = some table) (batches : BatchReader)
    (mode : InsertMode)
    (hnames : ∀ batch, .ok batch ∈ batches →
      ((batchColumns batch).map toAsciiLowercase).Nodup) :
    AllOrNothing engine denotes tables schema relation table batches mode
      (insertWith backend engine tables schema relation batches mode) := by
  have hcolumns := tableColumns_committed backend engine schema relation ⟨tables, tables, 0⟩
  unfold insertWith
  split
  · next hread => rw [hread] at hcolumns; exact .nothing _ _ hcolumns
  next validColumns opened hread =>
  rw [hread] at hcolumns
  have hbegin := begin_committed engine opened
  split
  · next hstart => rw [hstart] at hbegin; exact .nothing _ _ (hbegin.trans hcolumns)
  next started hstart =>
  rw [hstart] at hbegin
  have htruncate := truncateTable_committed backend engine schema relation started mode
  split
  · next hempty =>
    rw [hempty] at htruncate
    exact .nothing _ _ (htruncate.trans (hbegin.trans hcolumns))
  next emptied hempty =>
  rw [hempty] at htruncate
  have hloop := insertBatches_committed hsound schema relation validColumns batches emptied 0
  split
  · next hbatches =>
    rw [hbatches] at hloop
    exact .nothing _ _ (hloop.trans (htruncate.trans (hbegin.trans hcolumns)))
  next inserted written hbatches =>
  rw [hbatches] at hloop
  split
  · next hcommit =>
    have hcommitted := commit_error hcommit
    exact .nothing _ _ (hcommitted.trans (hloop.trans (htruncate.trans (hbegin.trans hcolumns))))
  next done hcommit =>
  -- everything went well: the committed tables are those that the transaction made
  have hworking : started.working = tables := (begin_ok hstart).trans hcolumns
  have hstarted : started.working schema relation = some table := by rw [hworking]; exact htable
  have hemptied := truncateTable_ok hsound hstarted hempty
  obtain ⟨read, rows, hread, hstored, hwritten, htotal⟩ := insertBatches_ok hsound validColumns
    batches emptied written 0 inserted { table with rows := kept mode table.rows }
    (by rw [hemptied]; simp) hnames hbatches
  refine .all _ _ read rows hread hstored ?_ (by rw [htotal, Nat.zero_add])
  rw [commit_ok hcommit, hwritten, hemptied, Tables.set_set, hworking]

end

end FsspecDb.Insert
