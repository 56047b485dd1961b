import FsspecDb.Insert.Issued
import FsspecDb.Sql.Intended

/-!
# Statements within a limit

A statement has a parameter for each cell of its batch, so the size of a batch decides. A
server that takes every statement is sent all of the batches that can be sent.
-/

namespace FsspecDb.Insert
open Text Fs Checked

variable {V : Type}

/-! ### A server that takes every statement -/

def takesAll (rules : Rules) : Engine Unit Argument where
  rules := rules
  coerce _ _ := some ()
  default _ _ := some ()
  fails _ := none
  rejected := .Other []

theorem takesAll_storeRows (rules : Rules) (columns names : List Str) (rows : List (List Unit))
    (values : List (List Argument)) :
    ∃ after, (takesAll rules).storeRows columns names rows values = some after := by
  have hrow (rows : List (List Unit)) (args : List Argument) :
      ∃ row, (takesAll rules).storeRow columns rows names args = some row := by
    unfold Engine.storeRow
    induction columns with
    | nil => exact ⟨[], rfl⟩
    | cons column columns ih =>
      obtain ⟨row, hrow⟩ := ih
      rw [List.mapM_cons, hrow]
      cases (names.zip args).find? fun p =>
          (takesAll rules).rules.fold p.1 = (takesAll rules).rules.fold column with
      | none => exact ⟨() :: row, rfl⟩
      | some p => exact ⟨() :: row, rfl⟩
  induction values generalizing rows with
  | nil => exact ⟨rows, rfl⟩
  | cons args values ih =>
    obtain ⟨row, hrow⟩ := hrow rows args
    rw [Engine.storeRows, hrow]
    exact ih (rows ++ [row])

section
variable {dialect : Dialect} {bind : ArrowArray → Nat → Except DbError Argument}
  {schema relation : Str} {validColumns : List Str} {rules : Rules}
  (hdialect : dialect ≠ .Postgres) (hquote : rules.quote = Sql.identifierQuote dialect)
  (hfold : ∀ a b, toAsciiLowercase a = toAsciiLowercase b → rules.fold a = rules.fold b)
include hdialect hquote hfold

theorem takesAll_execute {batch : RecordBatch} {statement : Str × List Argument}
    {session : Session Unit} {rows : List (List Unit)}
    (hstatement : statementOf dialect bind schema relation batch = .ok statement)
    (hknown : unknownColumn validColumns (batchColumns batch) = none)
    (honce : ¬ (rules.listsTwice = false ∧ ¬ ((batchColumns batch).map rules.fold).Nodup))
    (htable : session.working schema relation = some ⟨validColumns, rows⟩) :
    ∃ affected session' rows', (takesAll rules).execute session statement.1 statement.2 =
        (.ok affected, session') ∧
      session'.working schema relation = some ⟨validColumns, rows'⟩ := by
  obtain ⟨hsql, values, hvalues, heq⟩ := statementOf_ok hstatement
  have hlength : values.length = batch.numRows := by
    rw [← hvalues.length_eq, List.length_range]
  have hcolumns : ∀ value ∈ values, value.length = (batchColumns batch).length := by
    intro value hvalue
    obtain ⟨i, hi, rfl⟩ := List.getElem_of_mem hvalue
    rw [batchColumns_length]
    exact (List.Forall₂.get hvalues (by rw [hvalues.length_eq]; exact hi) hi).length_eq.symm
  have hgroups : Engine.splitGroups (List.replicate batch.numRows (batchColumns batch).length)
      values.flatten = some values := by
    rw [← hlength]
    exact splitGroups_flatten _ _ hcolumns
  have hunknown : ¬ ∃ name ∈ batchColumns batch, ∀ column ∈ validColumns,
      rules.fold column ≠ rules.fold name := by
    intro hgiven
    obtain ⟨name, hname, hnone⟩ := hgiven
    have hfound := List.find?_eq_none.mp hknown name hname
    rw [Bool.not_eq_true, Bool.not_eq_false', List.contains_iff_mem] at hfound
    obtain ⟨column, hcolumn, hlower⟩ := List.mem_map.mp hfound
    exact hnone column hcolumn (hfold _ _ hlower)
  obtain ⟨after, hafter⟩ := takesAll_storeRows rules validColumns (batchColumns batch) rows values
  have hshort : ¬ ∃ args ∈ values, args.length ≠ (batchColumns batch).length := by
    push Not
    exact hcolumns
  have hinsert : (takesAll rules).insertRows ⟨validColumns, rows⟩ (batchColumns batch) values =
      some ⟨validColumns, after⟩ := by
    refine (if_neg hunknown).trans ((if_neg honce).trans ((if_neg hshort).trans ?_))
    rw [hafter]
    rfl
  have hparse := Sql.parse_insertSql dialect schema relation _ _ statement.1 hdialect hsql
  have hrun : (takesAll rules).runStatement session.working (.insert schema relation
        (batchColumns batch) (List.replicate batch.numRows (batchColumns batch).length))
        statement.2 =
      some (values.length, session.working.set schema relation ⟨validColumns, after⟩) := by
    simp only [Engine.runStatement, htable, heq, hgroups, hinsert, Option.bind_eq_bind,
      Option.bind_some]
  have hexecute : (takesAll rules).execute session statement.1 statement.2 =
      (takesAll rules).answer session (session.commands + 1)
        ((Sql.parseStatement rules.quote statement.1).bind fun parsed =>
          (takesAll rules).runStatement session.working parsed statement.2) := rfl
  rw [hexecute, hquote, hparse, Option.bind_some, hrun]
  exact ⟨_, _, after, rfl, Tables.set_self ..⟩

theorem takesAll_issuedBatches (batches : BatchReader) (session : Session Unit)
    (rows : List (List Unit))
    (htable : session.working schema relation = some ⟨validColumns, rows⟩) :
    List.Forall₂ (fun batch statement =>
        statementOf dialect bind schema relation batch = .ok statement)
      (sendable dialect bind schema relation validColumns rules batches)
      (issuedBatches dialect bind (takesAll rules) schema relation validColumns batches
        session) := by
  induction batches generalizing session rows with
  | nil => exact .nil
  | cons item batches ih =>
    rw [issuedBatches_cons, sendable_cons]
    cases hfate : fate dialect bind schema relation validColumns item with
    | skip => exact ih session rows htable
    | stop => exact .nil
    | send batch statement =>
      obtain ⟨hknown, hstatement⟩ := fate_send hfate
      refine .cons hstatement ?_
      by_cases honce : rules.listsTwice = false ∧ ¬ ((batchColumns batch).map rules.fold).Nodup
      · rw [if_pos honce]
        cases hexecute : (takesAll rules).execute session statement.1 statement.2 with
        | mk result next =>
          cases result with
          | error err => exact .nil
          | ok affected =>
            exact absurd honce (listed_once_of_executed hdialect hquote hstatement hexecute)
      · rw [if_neg honce]
        obtain ⟨affected, next, rows', hexecute, htable'⟩ :=
          takesAll_execute hdialect hquote hfold hstatement hknown honce htable
        rw [hexecute]
        exact ih next rows' htable'

end

/-! ### The limits -/

/-- The parameters are the placeholders of the statement and the cells of the batch, row by
row, each of them once. -/
def Binds (quote : Char) (schema relation : Str) (batch : RecordBatch)
    (statement : Str × List Argument) : Prop :=
  Sql.parseStatement quote statement.1 = some (.insert schema relation (batchColumns batch)
      (List.replicate batch.numRows batch.columns.length)) ∧
    statement.2.map Argument.value = (batchCells batch).flatten

section
variable {backend : Backend V Argument} {bind : ArrowArray → Nat → Except DbError Argument}
  {schema relation : Str} {validColumns : List Str}

theorem tableColumns_ok {engine : Engine V Argument} {session session' : Session V}
    {columns : List Str}
    (h : tableColumns backend engine session schema relation = (.ok columns, session')) :
    (session.committed schema relation).map Table.columns = some columns := by
  unfold tableColumns at h
  split at h
  · cases h
  · split at h
    · cases h
    · dsimp only at h
      cases htable : session.committed schema relation with
      | none =>
        rw [htable] at h
        cases h
      | some table =>
        rw [htable, Prod.mk.injEq] at h
        exact congrArg some (Except.ok.inj h.1)

theorem issued_prefix (engine : Engine V Argument) (hdialect : backend.dialect ≠ .Postgres)
    (hquote : engine.rules.quote = Sql.identifierQuote backend.dialect) (tables : Tables V)
    (rows : List (List V)) (htable : tables schema relation = some ⟨validColumns, rows⟩)
    (batches : BatchReader) (mode : InsertMode) :
    ∃ sent, sent <+: sendable backend.dialect bind schema relation validColumns engine.rules
        batches ∧
      List.Forall₂ (fun batch statement =>
          statementOf backend.dialect bind schema relation batch = .ok statement) sent
        (issued backend bind engine tables schema relation batches mode) := by
  unfold issued
  split
  · exact ⟨[], List.nil_prefix, .nil⟩
  next columns session hread =>
  have hcolumns := tableColumns_ok hread
  dsimp only at hcolumns
  rw [htable] at hcolumns
  obtain rfl : validColumns = columns := Option.some.inj hcolumns
  split
  · exact ⟨[], List.nil_prefix, .nil⟩
  split
  · exact ⟨[], List.nil_prefix, .nil⟩
  · exact issuedBatches_prefix hdialect hquote batches _

theorem issued_binds (engine : Engine V Argument) (hdialect : backend.dialect ≠ .Postgres)
    (hquote : engine.rules.quote = Sql.identifierQuote backend.dialect)
    (hbind : ∀ array row arg, bind array row = .ok arg → arg.value = array.cell row)
    (tables : Tables V) (rows : List (List V))
    (htable : tables schema relation = some ⟨validColumns, rows⟩) (batches : BatchReader)
    (mode : InsertMode) :
    ∃ sent, sent <+: sendable backend.dialect bind schema relation validColumns engine.rules
        batches ∧
      List.Forall₂ (Binds engine.rules.quote schema relation) sent
        (issued backend bind engine tables schema relation batches mode) := by
  obtain ⟨sent, hsent, hissued⟩ := issued_prefix engine hdialect hquote tables rows htable batches
    mode
  refine ⟨sent, hsent, hissued.imp fun batch statement hstatement => ⟨?_, ?_⟩⟩
  · rw [hquote, ← batchColumns_length]
    exact Sql.parse_insertSql _ schema relation _ _ _ hdialect (statementOf_ok hstatement).1
  · exact statementOf_cells hbind hstatement

theorem issued_within (engine : Engine V Argument) (hdialect : backend.dialect ≠ .Postgres)
    (hquote : engine.rules.quote = Sql.identifierQuote backend.dialect) (tables : Tables V)
    (rows : List (List V)) (htable : tables schema relation = some ⟨validColumns, rows⟩)
    (batches : BatchReader) (mode : InsertMode) (limit : Nat)
    (h : ∀ batch ∈ sendable backend.dialect bind schema relation validColumns engine.rules batches,
      batch.numRows * batch.columns.length ≤ limit) :
    ∀ statement ∈ issued backend bind engine tables schema relation batches mode,
      statement.2.length ≤ limit := by
  obtain ⟨sent, hsent, hissued⟩ := issued_prefix engine hdialect hquote tables rows htable batches
    mode
  intro statement hstatement
  obtain ⟨i, hi, rfl⟩ := List.getElem_of_mem hstatement
  have hi' : i < sent.length := by rw [hissued.length_eq]; exact hi
  have hbatch := List.Forall₂.get hissued hi' hi
  exact (statementOf_length hbatch).le.trans (h _ (hsent.subset (List.get_mem sent ⟨i, hi'⟩)))

end

theorem issued_no_table {backend : Backend V Argument} {tables : Tables V} {schema relation : Str}
    (hnone : tables schema relation = none) (bind : ArrowArray → Nat → Except DbError Argument)
    (engine : Engine V Argument) (batches : BatchReader) (mode : InsertMode) :
    issued backend bind engine tables schema relation batches mode = [] := by
  unfold issued
  split
  · rfl
  next columns session hread =>
  have hcolumns := tableColumns_ok hread
  dsimp only at hcolumns
  rw [hnone] at hcolumns
  cases hcolumns

/-- A server that takes every statement is sent all of the batches. -/
theorem takesAll_issued {backend : Backend Unit Argument}
    {bind : ArrowArray → Nat → Except DbError Argument} {schema relation : Str}
    {validColumns : List Str} {rules : Rules} (hdialect : backend.dialect ≠ .Postgres)
    (hquote : rules.quote = Sql.identifierQuote backend.dialect)
    (hfold : ∀ a b, toAsciiLowercase a = toAsciiLowercase b → rules.fold a = rules.fold b)
    (hnames : backend.checkNames schema relation = .ok ()) (batches : BatchReader) :
    List.Forall₂ (fun batch statement =>
        statementOf backend.dialect bind schema relation batch = .ok statement)
      (sendable backend.dialect bind schema relation validColumns rules batches)
      (issued backend bind (takesAll rules)
        (Tables.set (fun _ _ => none) schema relation ⟨validColumns, []⟩) schema relation batches
        .Append) := by
  have hread : tableColumns backend (takesAll rules)
      ⟨Tables.set (fun _ _ => none) schema relation ⟨validColumns, []⟩,
        Tables.set (fun _ _ => none) schema relation ⟨validColumns, []⟩, 0⟩ schema relation =
      (.ok validColumns, ⟨Tables.set (fun _ _ => none) schema relation ⟨validColumns, []⟩,
        Tables.set (fun _ _ => none) schema relation ⟨validColumns, []⟩, 1⟩) := by
    simp only [tableColumns, hnames, takesAll, Tables.set_self]
  have htable : Tables.set (fun _ _ => none) schema relation ⟨validColumns, []⟩ schema relation =
      some (Table.mk (V := Unit) validColumns []) := Tables.set_self ..
  rw [issued, hread]
  exact takesAll_issuedBatches hdialect hquote hfold batches _ [] htable

theorem statementOf_sendable {dialect : Dialect} {bind : ArrowArray → Nat → Except DbError Argument}
    {schema relation : Str} {validColumns : List Str} {rules : Rules} (batches : BatchReader)
    (batch : RecordBatch)
    (h : batch ∈ sendable dialect bind schema relation validColumns rules batches) :
    ∃ statement, statementOf dialect bind schema relation batch = .ok statement := by
  induction batches with
  | nil => cases h
  | cons item batches ih =>
    rw [sendable_cons] at h
    cases hfate : fate dialect bind schema relation validColumns item with
    | skip =>
      rw [hfate] at h
      exact ih h
    | stop =>
      rw [hfate] at h
      cases h
    | send other statement =>
      rw [hfate] at h
      rcases List.mem_cons.mp h with rfl | h
      · exact ⟨statement, (fate_send hfate).2⟩
      · split at h
        · cases h
        · exact ih h

/-- No server with these rules that has the table is sent a statement beyond the limit. -/
def WithinLimit (backend : ∀ V : Type, Backend V Argument)
    (bind : ArrowArray → Nat → Except DbError Argument) (rules : Rules) (schema relation : Str)
    (validColumns : List Str) (batches : BatchReader) (limit : Nat) : Prop :=
  ∀ (V : Type) (engine : Engine V Argument) (tables : Tables V) (rows : List (List V))
    (mode : InsertMode), engine.rules = rules →
    tables schema relation = some ⟨validColumns, rows⟩ →
    ∀ statement ∈ issued (backend V) bind engine tables schema relation batches mode,
      statement.2.length ≤ limit

theorem withinLimit_iff {backend : ∀ V : Type, Backend V Argument} {dialect : Dialect}
    {bind : ArrowArray → Nat → Except DbError Argument} {schema relation : Str}
    {validColumns : List Str} {rules : Rules}
    (hbackend : ∀ V, (backend V).dialect = dialect) (hdialect : dialect ≠ .Postgres)
    (hquote : rules.quote = Sql.identifierQuote dialect)
    (hfold : ∀ a b, toAsciiLowercase a = toAsciiLowercase b → rules.fold a = rules.fold b)
    (hnames : (∃ name, Sql.qualifiedName dialect schema relation = .ok name) →
      (backend Unit).checkNames schema relation = .ok ())
    (batches : BatchReader) (limit : Nat) :
    WithinLimit backend bind rules schema relation validColumns batches limit ↔
      ∀ batch ∈ sendable dialect bind schema relation validColumns rules batches,
        batch.numRows * batch.columns.length ≤ limit := by
  constructor
  · intro h batch hbatch
    obtain ⟨statement, hstatement⟩ := statementOf_sendable batches batch hbatch
    have hvalid := (Sql.exists_insertSql_iff dialect schema relation _ _).mp
      ⟨_, (statementOf_ok hstatement).1⟩
    have hcheck := hnames ((Sql.exists_qualifiedName_iff dialect schema relation).mpr hvalid.2.2.1)
    have hall : List.Forall₂ (fun batch statement =>
          statementOf (backend Unit).dialect bind schema relation batch = .ok statement)
        (sendable (backend Unit).dialect bind schema relation validColumns rules batches)
        (issued (backend Unit) bind (takesAll rules)
          (Tables.set (fun _ _ => none) schema relation ⟨validColumns, []⟩) schema relation batches
          .Append) := by
      refine takesAll_issued ?_ ?_ hfold hcheck batches
      · rw [hbackend]
        exact hdialect
      · rw [hbackend]
        exact hquote
    rw [hbackend] at hall
    obtain ⟨i, hi, rfl⟩ := List.getElem_of_mem hbatch
    have hi' := hi
    rw [hall.length_eq] at hi'
    have hissued := List.Forall₂.get hall hi hi'
    have hlimit := h Unit (takesAll rules) _ [] .Append rfl (Tables.set_self ..) _
      (List.get_mem _ ⟨i, hi'⟩)
    rw [statementOf_length hissued] at hlimit
    exact hlimit
  · intro h V engine tables rows mode hrules htable
    refine issued_within engine (by rw [hbackend]; exact hdialect)
      (by rw [hbackend, hrules]; exact hquote) tables rows htable batches mode limit ?_
    rw [hbackend, hrules]
    exact h

end FsspecDb.Insert
