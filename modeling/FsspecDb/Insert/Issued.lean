import FsspecDb.Insert.Atomic

/-!
# The INSERT statements of an insert

Each batch that has rows, known columns and values that can be bound becomes one statement
with a parameter for each of its cells. The server answers it before the next batch is read.
-/

namespace FsspecDb.Insert
open Text Fs Checked

variable {V : Type}

/-- The statement for a batch, with its parameters. -/
def statementOf (dialect : Dialect) (bind : ArrowArray → Nat → Except DbError Argument)
    (schema relation : Str) (batch : RecordBatch) : Except DbError (Str × List Argument) := do
  let sql ← Sql.insertSql dialect schema relation (batchColumns batch) batch.numRows
  let args ← bindRows bind batch
  .ok (sql, args)

theorem insertStatement_eq (dialect : Dialect) (bind : ArrowArray → Nat → Except DbError Argument)
    (engine : Engine V Argument) (session : Session V) (schema relation : Str)
    (batch : RecordBatch) :
    insertStatement dialect bind engine session schema relation batch =
      match statementOf dialect bind schema relation batch with
      | .error err => (.error err, session)
      | .ok (sql, args) => engine.execute session sql args := by
  rw [insertStatement, statementOf]
  cases Sql.insertSql dialect schema relation (batchColumns batch) batch.numRows with
  | error err => rfl
  | ok sql =>
    cases bindRows bind batch with
    | error err => rfl
    | ok args => rfl

section
variable (dialect : Dialect) (bind : ArrowArray → Nat → Except DbError Argument)
  (engine : Engine V Argument) (schema relation : Str) (validColumns : List Str)

/-- The statements that `insertBatches` sends, with their parameters. -/
def issuedBatches : BatchReader → Session V → List (Str × List Argument)
  | [], _ => []
  | .error _ :: _, _ => []
  | .ok batch :: batches, session =>
    if batch.numRows = 0 then issuedBatches batches session
    else
      match unknownColumn validColumns (batchColumns batch) with
      | some _ => []
      | none =>
        match statementOf dialect bind schema relation batch with
        | .error _ => []
        | .ok (sql, args) =>
          (sql, args) ::
            match engine.execute session sql args with
            | (.error _, _) => []
            | (.ok _, session) => issuedBatches batches session

/-- The batches that a server that takes every statement is sent, by the names that it takes
twice in one statement. -/
def sendable (rules : Rules) : BatchReader → List RecordBatch
  | [] => []
  | .error _ :: _ => []
  | .ok batch :: batches =>
    if batch.numRows = 0 then sendable rules batches
    else
      match unknownColumn validColumns (batchColumns batch) with
      | some _ => []
      | none =>
        match statementOf dialect bind schema relation batch with
        | .error _ => []
        | .ok _ =>
          batch ::
            if rules.listsTwice = false ∧ ¬ ((batchColumns batch).map rules.fold).Nodup then []
            else sendable rules batches

end

/-- The statements that `insert` sends after the table is checked and emptied. -/
def issued (backend : Backend V Argument) (bind : ArrowArray → Nat → Except DbError Argument)
    (engine : Engine V Argument) (tables : Tables V) (schema relation : Str)
    (batches : BatchReader) (mode : InsertMode) : List (Str × List Argument) :=
  match tableColumns backend engine ⟨tables, tables, 0⟩ schema relation with
  | (.error _, _) => []
  | (.ok validColumns, session) =>
    match engine.begin session with
    | (.error _, _) => []
    | (.ok (), session) =>
      match truncateTable backend engine session schema relation mode with
      | (.error _, _) => []
      | (.ok (), session) =>
        issuedBatches backend.dialect bind engine schema relation validColumns batches session

/-- The loop of an insert sends these statements: its session is the one after them, one after
the other. -/
def Sends (backend : Backend V Argument) (bind : ArrowArray → Nat → Except DbError Argument)
    (engine : Engine V Argument) (schema relation : Str) (validColumns : List Str)
    (batches : BatchReader) : Prop :=
  ∀ (session : Session V) (inserted : Nat),
    (insertBatches backend engine schema relation validColumns batches session inserted).2 =
      (issuedBatches backend.dialect bind engine schema relation validColumns batches session).foldl
        (fun session statement => (engine.execute session statement.1 statement.2).2) session

/-! ### One statement -/

section
variable {dialect : Dialect} {bind : ArrowArray → Nat → Except DbError Argument}
  {schema relation : Str}

theorem statementOf_ok {batch : RecordBatch} {statement : Str × List Argument}
    (h : statementOf dialect bind schema relation batch = .ok statement) :
    Sql.insertSql dialect schema relation (batchColumns batch) batch.numRows = .ok statement.1 ∧
      ∃ values, List.Forall₂ (fun row value => List.Forall₂ (fun column arg =>
          bind column row = .ok arg) batch.columns value) (List.range batch.numRows) values ∧
        statement.2 = values.flatten := by
  obtain ⟨sql, hsql, h⟩ := bind_eq_ok_iff.mp h
  obtain ⟨args, hargs, heq⟩ := bind_eq_ok_iff.mp h
  obtain ⟨values, hvalues, rfl⟩ := map_eq_ok_iff.mp hargs
  rw [← Except.ok.inj heq]
  exact ⟨hsql, values, (mapM_eq_ok_iff.mp hvalues).imp fun row value hrow => mapM_eq_ok_iff.mp hrow,
    rfl⟩

/-- The parameters are the cells of the batch, row by row, each of them once. -/
theorem statementOf_cells
    (hbind : ∀ array row arg, bind array row = .ok arg → arg.value = array.cell row)
    {batch : RecordBatch} {statement : Str × List Argument}
    (h : statementOf dialect bind schema relation batch = .ok statement) :
    statement.2.map Argument.value = (batchCells batch).flatten := by
  obtain ⟨_, values, hvalues, heq⟩ := statementOf_ok h
  have hdenotes := batchCells_denotes (fun column row arg => bind column row = .ok arg) hbind batch
    values hvalues
  have hflat := List.rel_flatten hdenotes
  rw [heq, ← List.forall₂_eq_eq_eq, List.forall₂_map_left_iff]
  exact hflat

theorem statementOf_length {batch : RecordBatch} {statement : Str × List Argument}
    (h : statementOf dialect bind schema relation batch = .ok statement) :
    statement.2.length = batch.numRows * batch.columns.length := by
  obtain ⟨_, values, hvalues, heq⟩ := statementOf_ok h
  have hrows := hvalues.length_eq
  have hcolumns : ∀ value ∈ values, value.length = batch.columns.length := by
    intro value hvalue
    obtain ⟨i, hi, rfl⟩ := List.getElem_of_mem hvalue
    exact (List.Forall₂.get hvalues (by omega) hi).length_eq.symm
  rw [List.length_range] at hrows
  rw [heq, hrows, List.length_flatten, List.map_congr_left hcolumns, List.map_const',
    List.sum_replicate_nat]

end

/-! ### The loop -/

/-- What the loop does with an item of the reader. -/
inductive Fate where
  | skip
  | stop
  | send (batch : RecordBatch) (statement : Str × List Argument)

section
variable (dialect : Dialect) (bind : ArrowArray → Nat → Except DbError Argument)
  (engine : Engine V Argument) (schema relation : Str) (validColumns : List Str)

def fate : Except Str RecordBatch → Fate
  | .error _ => .stop
  | .ok batch =>
    if batch.numRows = 0 then .skip
    else
      match unknownColumn validColumns (batchColumns batch) with
      | some _ => .stop
      | none =>
        match statementOf dialect bind schema relation batch with
        | .error _ => .stop
        | .ok statement => .send batch statement

theorem issuedBatches_cons (item : Except Str RecordBatch) (batches : BatchReader)
    (session : Session V) :
    issuedBatches dialect bind engine schema relation validColumns (item :: batches) session =
      match fate dialect bind schema relation validColumns item with
      | .skip => issuedBatches dialect bind engine schema relation validColumns batches session
      | .stop => []
      | .send _ statement =>
        statement ::
          match engine.execute session statement.1 statement.2 with
          | (.error _, _) => []
          | (.ok _, session) =>
            issuedBatches dialect bind engine schema relation validColumns batches session := by
  cases item with
  | error msg => rfl
  | ok batch =>
    rw [issuedBatches, fate]
    by_cases hempty : batch.numRows = 0
    · rw [if_pos hempty, if_pos hempty]
    · rw [if_neg hempty, if_neg hempty]
      cases unknownColumn validColumns (batchColumns batch) with
      | some column => rfl
      | none => cases statementOf dialect bind schema relation batch <;> rfl

theorem sendable_cons (rules : Rules) (item : Except Str RecordBatch) (batches : BatchReader) :
    sendable dialect bind schema relation validColumns rules (item :: batches) =
      match fate dialect bind schema relation validColumns item with
      | .skip => sendable dialect bind schema relation validColumns rules batches
      | .stop => []
      | .send batch _ =>
        batch ::
          if rules.listsTwice = false ∧ ¬ ((batchColumns batch).map rules.fold).Nodup then []
          else sendable dialect bind schema relation validColumns rules batches := by
  cases item with
  | error msg => rfl
  | ok batch =>
    rw [sendable, fate]
    by_cases hempty : batch.numRows = 0
    · rw [if_pos hempty, if_pos hempty]
    · rw [if_neg hempty, if_neg hempty]
      cases unknownColumn validColumns (batchColumns batch) with
      | some column => rfl
      | none => cases statementOf dialect bind schema relation batch <;> rfl

end

section
variable {dialect : Dialect} {bind : ArrowArray → Nat → Except DbError Argument}
  {engine : Engine V Argument} {schema relation : Str} {validColumns : List Str}

theorem fate_send {item : Except Str RecordBatch} {batch : RecordBatch}
    {statement : Str × List Argument}
    (h : fate dialect bind schema relation validColumns item = .send batch statement) :
    unknownColumn validColumns (batchColumns batch) = none ∧
      statementOf dialect bind schema relation batch = .ok statement := by
  unfold fate at h
  split at h
  · cases h
  · split at h
    · cases h
    · split at h
      · cases h
      · next hknown =>
        split at h
        · cases h
        · next hstatement =>
          cases h
          exact ⟨hknown, hstatement⟩

theorem insertBatches_sends {backend : Backend V Argument} (hdialect : backend.dialect = dialect)
    (hwrite : backend.write = insertStatement dialect bind) (batches : BatchReader) :
    Sends backend bind engine schema relation validColumns batches := by
  intro session inserted
  rw [hdialect]
  induction batches generalizing session inserted with
  | nil => rfl
  | cons item batches ih =>
    cases item with
    | error msg => rfl
    | ok batch =>
      rw [insertBatches, issuedBatches]
      by_cases hempty : batch.numRows = 0
      · rw [if_pos hempty, if_pos hempty]
        exact ih session inserted
      · rw [if_neg hempty, if_neg hempty]
        cases unknownColumn validColumns (batchColumns batch) with
        | some column => rfl
        | none =>
          simp only [hwrite, insertStatement_eq]
          cases statementOf dialect bind schema relation batch with
          | error err => rfl
          | ok statement =>
            simp only [List.foldl_cons]
            cases engine.execute session statement.1 statement.2 with
            | mk result next =>
              cases result with
              | error err => rfl
              | ok affected => exact ih next (inserted + affected)

/- A server that takes no column twice has rejected a statement that lists one twice. -/
theorem listed_once_of_executed (hdialect : dialect ≠ .Postgres)
    (hquote : engine.rules.quote = Sql.identifierQuote dialect) {batch : RecordBatch}
    {statement : Str × List Argument} {session session' : Session V} {affected : Nat}
    (hstatement : statementOf dialect bind schema relation batch = .ok statement)
    (h : engine.execute session statement.1 statement.2 = (.ok affected, session')) :
    ¬ (engine.rules.listsTwice = false ∧
      ¬ ((batchColumns batch).map engine.rules.fold).Nodup) := by
  intro htwice
  have hparse := Sql.parse_insertSql dialect schema relation _ _ statement.1 hdialect
    (statementOf_ok hstatement).1
  rw [← hquote] at hparse
  have hrun := execute_ok hparse h
  simp only [Engine.runStatement, Option.bind_eq_bind, Option.bind_eq_some_iff] at hrun
  obtain ⟨table, _, values, _, after, hafter, _⟩ := hrun
  unfold Engine.insertRows at hafter
  split at hafter
  · cases hafter
  · cases hafter

/-- The statements are those of the first batches that can be sent. -/
theorem issuedBatches_prefix (hdialect : dialect ≠ .Postgres)
    (hquote : engine.rules.quote = Sql.identifierQuote dialect) (batches : BatchReader)
    (session : Session V) :
    ∃ sent, sent <+: sendable dialect bind schema relation validColumns engine.rules batches ∧
      List.Forall₂ (fun batch statement =>
          statementOf dialect bind schema relation batch = .ok statement) sent
        (issuedBatches dialect bind engine schema relation validColumns batches session) := by
  induction batches generalizing session with
  | nil => exact ⟨[], List.nil_prefix, .nil⟩
  | cons item batches ih =>
    rw [issuedBatches_cons, sendable_cons]
    cases hfate : fate dialect bind schema relation validColumns item with
    | skip => exact ih session
    | stop => exact ⟨[], List.nil_prefix, .nil⟩
    | send batch statement =>
      dsimp only
      have hstatement := (fate_send hfate).2
      cases hexecute : engine.execute session statement.1 statement.2 with
      | mk result next =>
        cases result with
        | error err =>
          exact ⟨[batch], List.prefix_cons_inj batch |>.mpr List.nil_prefix,
            .cons hstatement .nil⟩
        | ok affected =>
          obtain ⟨sent, hsent, hissued⟩ := ih next
          have honce := listed_once_of_executed hdialect hquote hstatement hexecute
          rw [if_neg honce]
          exact ⟨batch :: sent, List.prefix_cons_inj batch |>.mpr hsent,
            .cons hstatement hissued⟩

end

end FsspecDb.Insert
