import FsspecDb.Insert.Native
import FsspecDb.Lib.Checked
import FsspecDb.Lib.Keyed
import FsspecDb.Sql.Intended

/-!
# Columns in another order

A statement that lists its columns stores the same rows whatever order they are listed in, so
long as each value moves with its name.
-/

namespace FsspecDb.Insert
open Text Fs Checked

variable {V Arg : Type}

/-- The same columns with their fields, in another order. -/
def Reordered (batch other : RecordBatch) : Prop :=
  batch.numRows = other.numRows ∧
    (batch.schema.zip batch.columns).Perm (other.schema.zip other.columns)

theorem Reordered.symm {batch other : RecordBatch} (h : Reordered batch other) :
    Reordered other batch := ⟨h.1.symm, h.2.symm⟩

theorem schema_length (batch : RecordBatch) : batch.schema.length = batch.columns.length := by
  have htypes := congrArg List.length batch.wellFormed.types
  rwa [List.length_map, List.length_map, eq_comm] at htypes

theorem schema_eq (batch : RecordBatch) :
    (batch.schema.zip batch.columns).map Prod.fst = batch.schema :=
  List.map_fst_zip (by rw [schema_length])

theorem columns_eq (batch : RecordBatch) :
    (batch.schema.zip batch.columns).map Prod.snd = batch.columns :=
  List.map_snd_zip (by rw [schema_length])

theorem batchColumns_eq (batch : RecordBatch) :
    (batch.schema.zip batch.columns).map (fun p => p.1.name) = batchColumns batch := by
  conv_rhs => rw [batchColumns, ← schema_eq batch, List.map_map]
  rfl

theorem batchColumns_perm {batch other : RecordBatch} (h : Reordered batch other) :
    (batchColumns batch).Perm (batchColumns other) := by
  rw [← batchColumns_eq, ← batchColumns_eq]
  exact h.2.map _

/-- One row read off the columns: each value stays with the name of its column. -/
theorem row_reordered {α : Type} {batch other : RecordBatch} (h : Reordered batch other)
    (read : ArrowArray → Except DbError α) {values : List α}
    (hread : batch.columns.mapM read = .ok values) :
    ∃ values', other.columns.mapM read = .ok values' ∧
      ((batchColumns batch).zip values).Perm ((batchColumns other).zip values') := by
  have hcolumns (batch : RecordBatch) : batch.columns.mapM read =
      (batch.schema.zip batch.columns).mapM fun p => read p.2 := by
    conv_lhs => rw [← columns_eq batch]
    exact List.mapM_map
  rw [hcolumns] at hread
  obtain ⟨values', hread', hperm⟩ := mapM_perm h.2 hread
  have hnames (batch : RecordBatch) (values : List α) :
      ((batch.schema.zip batch.columns).zip values).map (Prod.map (fun p => p.1.name) id) =
        (batchColumns batch).zip values := by
    rw [← List.zip_map_left, batchColumns_eq]
  refine ⟨values', by rw [hcolumns]; exact hread', ?_⟩
  rw [← hnames, ← hnames]
  exact hperm.map _

/- Rows of arguments of the two batches, where every argument moved with its name. -/
def SameRows (names names' : List Str) (values values' : List (List Arg)) : Prop :=
  List.Forall₂ (fun row row' => row.length = names.length ∧ row'.length = names'.length ∧
    (names.zip row).Perm (names'.zip row')) values values'

theorem rows_reordered {α : Type} {batch other : RecordBatch} (h : Reordered batch other)
    (read : ArrowArray → Nat → Except DbError α) {values : List (List α)}
    (hread : (List.range batch.numRows).mapM (fun row =>
      batch.columns.mapM fun column => read column row) = .ok values) :
    ∃ values', (List.range other.numRows).mapM (fun row =>
        other.columns.mapM fun column => read column row) = .ok values' ∧
      SameRows (batchColumns batch) (batchColumns other) values values' := by
  rw [← h.1]
  generalize List.range batch.numRows = range at hread
  rw [mapM_eq_ok_iff] at hread
  induction hread with
  | nil => exact ⟨[], rfl, .nil⟩
  | @cons row args range values hrow _ ih =>
    obtain ⟨args', hargs', hperm⟩ := row_reordered h (fun column => read column row) hrow
    obtain ⟨values', hvalues', hsame⟩ := ih
    have hlength (batch : RecordBatch) (args : List α)
        (hargs : batch.columns.mapM (fun column => read column row) = .ok args) :
        args.length = (batchColumns batch).length := by
      rw [← (mapM_eq_ok_iff.mp hargs).length_eq, batchColumns, List.length_map, schema_length]
    refine ⟨args' :: values', ?_, .cons ⟨hlength _ _ hrow, hlength _ _ hargs', hperm⟩ hsame⟩
    rw [List.mapM_cons, hargs', hvalues']
    rfl

/-! ### Storing the rows -/

section
variable (engine : Engine V Arg) {names names' : List Str}
  (hnames : (names.map engine.rules.fold).Nodup)
include hnames

theorem storeRow_reordered (columns : List Str) (rows : List (List V)) {row row' : List Arg}
    (hlength : row.length = names.length) (h : (names.zip row).Perm (names'.zip row')) :
    engine.storeRow columns rows names row = engine.storeRow columns rows names' row' := by
  have hkeys : ((names.zip row).map fun p => engine.rules.fold p.1).Nodup := by
    have hfst : (names.zip row).map (fun p => engine.rules.fold p.1) =
        names.map engine.rules.fold := by
      have hzip : (names.zip row).map Prod.fst = names := List.map_fst_zip (by omega)
      conv_rhs => rw [← hzip, List.map_map]
      rfl
    rwa [hfst]
  unfold Engine.storeRow
  refine congrArg (List.mapM · columns) (funext fun column => ?_)
  rw [Keyed.find_perm _ _ (fun p => engine.rules.fold p.1) h hkeys]

theorem storeRows_reordered (columns : List Str) (rows : List (List V))
    {values values' : List (List Arg)} (h : SameRows names names' values values') :
    engine.storeRows columns names rows values = engine.storeRows columns names' rows values' := by
  induction h generalizing rows with
  | nil => rfl
  | cons hhead _ ih =>
    obtain ⟨hlength, _, hperm⟩ := hhead
    simp only [Engine.storeRows, storeRow_reordered engine hnames columns rows hlength hperm, ih]

/-- An INSERT that lists its columns does not depend on their order. -/
theorem insertRows_reordered (hperm : names.Perm names') (table : Table V)
    {values values' : List (List Arg)} (h : SameRows names names' values values') :
    engine.insertRows table names values = engine.insertRows table names' values' := by
  have hunknown : (∃ name ∈ names, ∀ column ∈ table.columns,
        engine.rules.fold column ≠ engine.rules.fold name) ↔
      ∃ name ∈ names', ∀ column ∈ table.columns,
        engine.rules.fold column ≠ engine.rules.fold name := by
    simp only [hperm.mem_iff]
  have hlengths : (¬ ∃ args ∈ values, args.length ≠ names.length) ∧
      ¬ ∃ args ∈ values', args.length ≠ names'.length := by
    push Not
    induction h with
    | nil => simp
    | cons hhead _ ih =>
      rw [List.forall_mem_cons, List.forall_mem_cons]
      exact ⟨⟨hhead.1, ih.1⟩, hhead.2.1, ih.2⟩
  have hnames' : (names'.map engine.rules.fold).Nodup := (hperm.map _).nodup_iff.mp hnames
  unfold Engine.insertRows
  rw [if_neg hlengths.1, if_neg hlengths.2, storeRows_reordered engine hnames _ _ h]
  simp only [hunknown, hnames, hnames']

end

/-! ### A whole insert -/

/- The same session, and the same result up to the text of an error. -/
def SameOutcome (a b : Except DbError Nat × Session V) : Prop :=
  a.2 = b.2 ∧ a.1.toOption = b.1.toOption

theorem SameOutcome.refl (a : Except DbError Nat × Session V) : SameOutcome a a := ⟨rfl, rfl⟩

/- Both raise, or both give the same. -/
theorem SameOutcome.cases {a b : Except DbError Nat × Session V} (h : SameOutcome a b) :
    (∃ err err' session, a = (.error err, session) ∧ b = (.error err', session)) ∨
      ∃ n session, a = (.ok n, session) ∧ b = (.ok n, session) := by
  obtain ⟨result, session⟩ := a
  obtain ⟨result', session'⟩ := b
  obtain ⟨hsession, hresult⟩ := h
  cases hsession
  cases result with
  | error err =>
    cases result' with
    | error err' => exact .inl ⟨err, err', session, rfl, rfl⟩
    | ok n' => cases hresult
  | ok n =>
    cases result' with
    | error err' => cases hresult
    | ok n' =>
      cases hresult
      exact .inr ⟨n, session, rfl, rfl⟩

section
variable {dialect : Dialect} {bind : ArrowArray → Nat → Except DbError Argument}
  {engine : Engine V Argument}

theorem execute_reordered (hquote : engine.rules.quote = Sql.identifierQuote dialect)
    (hdialect : dialect ≠ .Postgres) (session : Session V) (schema relation sql sql' : Str)
    {names names' : List Str} {rows : Nat} (hperm : names.Perm names')
    (hnames : (names.map engine.rules.fold).Nodup)
    (hsql : Sql.insertSql dialect schema relation names rows = .ok sql)
    (hsql' : Sql.insertSql dialect schema relation names' rows = .ok sql')
    {values values' : List (List Argument)} (hrows : values.length = rows)
    (hvalues : SameRows names names' values values') :
    engine.execute session sql values.flatten = engine.execute session sql' values'.flatten := by
  have hgroups : Engine.splitGroups (List.replicate rows names.length) values.flatten =
      some values := by
    rw [← hrows]
    refine splitGroups_flatten _ _ fun args hargs => ?_
    obtain ⟨i, hi, rfl⟩ := List.getElem_of_mem hargs
    exact (List.Forall₂.get hvalues hi (by rw [← hvalues.length_eq]; exact hi)).1
  have hgroups' : Engine.splitGroups (List.replicate rows names'.length) values'.flatten =
      some values' := by
    rw [← hrows, hvalues.length_eq]
    refine splitGroups_flatten _ _ fun args hargs => ?_
    obtain ⟨i, hi, rfl⟩ := List.getElem_of_mem hargs
    exact (List.Forall₂.get hvalues (by rw [hvalues.length_eq]; exact hi) hi).2.1
  unfold Engine.execute
  rw [hquote, Sql.parse_insertSql dialect schema relation _ _ sql hdialect hsql,
    Sql.parse_insertSql dialect schema relation _ _ sql' hdialect hsql']
  simp only [Option.bind_some, Engine.runStatement, hgroups, hgroups', Option.bind_eq_bind,
    insertRows_reordered engine hnames hperm _ hvalues, hvalues.length_eq]

theorem insertStatement_reordered (hquote : engine.rules.quote = Sql.identifierQuote dialect)
    (hdialect : dialect ≠ .Postgres) (session : Session V) (schema relation : Str)
    {batch other : RecordBatch} (h : Reordered batch other)
    (hnames : ((batchColumns batch).map engine.rules.fold).Nodup) :
    SameOutcome (insertStatement dialect bind engine session schema relation batch)
      (insertStatement dialect bind engine session schema relation other) := by
  have hperm := batchColumns_perm h
  have hsql : (∃ sql, Sql.insertSql dialect schema relation (batchColumns batch) batch.numRows =
        .ok sql) ↔
      ∃ sql, Sql.insertSql dialect schema relation (batchColumns other) other.numRows =
        .ok sql := by
    rw [Sql.exists_insertSql_iff, Sql.exists_insertSql_iff, ← h.1]
    simp only [hperm.mem_iff, ne_eq, ← List.length_eq_zero_iff, hperm.length_eq]
  unfold insertStatement
  cases hbatch : Sql.insertSql dialect schema relation (batchColumns batch) batch.numRows with
  | error err =>
    cases hother : Sql.insertSql dialect schema relation (batchColumns other) other.numRows with
    | error err' => exact ⟨rfl, rfl⟩
    | ok sql' =>
      obtain ⟨sql, heq⟩ := hsql.mpr ⟨sql', hother⟩
      rw [hbatch] at heq
      cases heq
  | ok sql =>
    obtain ⟨sql', hother⟩ := hsql.mp ⟨sql, hbatch⟩
    rw [hother]
    cases hrows : (List.range batch.numRows).mapM fun row =>
        batch.columns.mapM fun column => bind column row with
    | error err =>
      cases hrows' : (List.range other.numRows).mapM fun row =>
          other.columns.mapM fun column => bind column row with
      | error err' =>
        simp only [bindRows, hrows, hrows', Except.map]
        exact ⟨rfl, rfl⟩
      | ok values' =>
        obtain ⟨values, heq, _⟩ := rows_reordered h.symm bind hrows'
        rw [hrows] at heq
        cases heq
    | ok values =>
      obtain ⟨values', hrows', hsame⟩ := rows_reordered h bind hrows
      simp only [bindRows, hrows, hrows', Except.map]
      have hlength : values.length = batch.numRows := by
        rw [← (mapM_eq_ok_iff.mp hrows).length_eq, List.length_range]
      rw [← h.1] at hother
      rw [execute_reordered hquote hdialect session schema relation sql sql' hperm hnames hbatch
        hother hlength hsame]
      exact .refl _

end

end FsspecDb.Insert
