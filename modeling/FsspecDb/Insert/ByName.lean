import FsspecDb.Insert.Atomic
import FsspecDb.Insert.DuckDb
import FsspecDb.Insert.SqlAlchemy

/-!
# Inserts by the names of the columns
-/

namespace FsspecDb.Insert
open Text Fs Checked

variable {V : Type}

theorem unknownColumn_eq_none_iff (validColumns columns : List Str) :
    unknownColumn validColumns columns = none ↔ ∀ column ∈ columns,
      (validColumns.map toAsciiLowercase).contains (toAsciiLowercase column) = true := by
  rw [unknownColumn, List.find?_eq_none]
  simp

section
variable {Arg : Type} {backend : Backend V Arg} {engine : Engine V Arg} {schema relation : Str}
  (hwrite : ∀ (session : Session V) (batch other : RecordBatch), Reordered batch other →
    ((batchColumns batch).map engine.rules.fold).Nodup →
    SameOutcome (backend.write engine session schema relation batch)
      (backend.write engine session schema relation other))
include hwrite

theorem insertBatches_reordered (validColumns : List Str) {batches others : List RecordBatch}
    (h : List.Forall₂ Reordered batches others)
    (hnames : ∀ batch ∈ batches, ((batchColumns batch).map engine.rules.fold).Nodup)
    (session : Session V) (inserted : Nat) :
    SameOutcome
      (insertBatches backend engine schema relation validColumns (batches.map .ok) session inserted)
      (insertBatches backend engine schema relation validColumns (others.map .ok) session
        inserted) := by
  induction h generalizing session inserted with
  | nil => exact .refl _
  | @cons batch other batches others hhead _ ih =>
    rw [List.forall_mem_cons] at hnames
    rw [List.map_cons, List.map_cons, insertBatches, insertBatches, ← hhead.1]
    by_cases hempty : batch.numRows = 0
    · rw [if_pos hempty, if_pos hempty]
      exact ih hnames.2 session inserted
    · rw [if_neg hempty, if_neg hempty]
      have hunknown : unknownColumn validColumns (batchColumns batch) = none ↔
          unknownColumn validColumns (batchColumns other) = none := by
        simp only [unknownColumn_eq_none_iff, (batchColumns_perm hhead).mem_iff]
      cases hbatch : unknownColumn validColumns (batchColumns batch) with
      | some column =>
        cases hother : unknownColumn validColumns (batchColumns other) with
        | some column' => exact ⟨rfl, rfl⟩
        | none =>
          rw [hunknown.mpr hother] at hbatch
          cases hbatch
      | none =>
        rw [hunknown.mp hbatch]
        rcases (hwrite session batch other hhead hnames.1).cases with
          ⟨err, err', next, hfails, hfails'⟩ | ⟨affected, next, hok, hok'⟩
        · rw [hfails, hfails']
          exact ⟨rfl, rfl⟩
        · rw [hok, hok']
          exact ih hnames.2 next (inserted + affected)

/-- A backend that writes a batch by the names of its columns inserts a reordered table alike. -/
theorem insertWith_reordered (tables : Tables V) {batches others : List RecordBatch}
    (h : List.Forall₂ Reordered batches others)
    (hnames : ∀ batch ∈ batches, ((batchColumns batch).map engine.rules.fold).Nodup)
    (mode : InsertMode) :
    (insertWith backend engine tables schema relation (batches.map .ok) mode).2 =
      (insertWith backend engine tables schema relation (others.map .ok) mode).2 := by
  unfold insertWith
  split
  · rfl
  next validColumns session _ =>
  split
  · rfl
  next session _ =>
  split
  · rfl
  next session _ =>
  rcases (insertBatches_reordered hwrite validColumns h hnames session 0).cases with
    ⟨err, err', next, hfails, hfails'⟩ | ⟨inserted, next, hok, hok'⟩
  · rw [hfails, hfails']
  · rw [hok, hok']

end

/-! ### Positions -/

/-- The two tables are stored alike: both are refused, or at every position of every row the
same value is stored. -/
def StoredAlike (core : DuckDb.Core V) (target : Table V) (table other : RecordBatch) : Prop :=
  core.stored target table = none ∧ core.stored target other = none ∨
    (core.stored target table).isSome ∧ (core.stored target other).isSome ∧
      ∀ row < table.numRows,
        core.castRow target.columns table row = core.castRow target.columns other row

theorem rows_of_stored (core : DuckDb.Core V) (target : Table V) (table : RecordBatch)
    (rows : List (List V)) (h : core.stored target table = some rows) :
    (List.range table.numRows).mapM (core.castRow target.columns table) = some rows := by
  unfold DuckDb.Core.stored at h
  split at h
  · exact (Option.filter_eq_some_iff.mp h).1
  · cases h

theorem storedAlike_iff (core : DuckDb.Core V) (target : Table V) (table other : RecordBatch)
    (hrows : table.numRows = other.numRows) :
    StoredAlike core target table other ↔
      core.stored target table = core.stored target other := by
  cases hstored : core.stored target table with
  | none =>
    simp only [StoredAlike, hstored, true_and, Option.isSome_none, Bool.false_eq_true, false_and,
      or_false]
    exact eq_comm
  | some rows =>
    have hcasts := rows_of_stored core target table rows hstored
    cases hstored' : core.stored target other with
    | none => simp [StoredAlike, hstored, hstored']
    | some rows' =>
      have hcasts' := rows_of_stored core target other rows' hstored'
      have hcongr := mapM_eq_some_congr (g := core.castRow target.columns other) hcasts
      rw [hrows, hcasts'] at hcongr
      simp only [StoredAlike, hstored, hstored', reduceCtorEq, false_and, false_or,
        Option.isSome_some, true_and, Option.some.injEq, hrows]
      rw [eq_comm, ← Option.some.injEq, hcongr]
      simp only [List.mem_range, eq_comm]

/-- What DuckDB leaves of the table is the same for two orders of the columns, if and only if a
call before or the INSERT itself fails, there is no row, or the rows are stored alike. -/
theorem duckDb_insert_iff {core : DuckDb.Core V} {connection : DuckDb.Connection V}
    {schema relation : Str} {target : Table V} {s : DuckDb.State V} {table other : RecordBatch}
    (h : DuckDb.Documented core connection schema relation)
    (htarget : s.tables schema relation = some target) (hrows : table.numRows = other.numRows)
    (mode : InsertMode) :
    (DuckDb.insert connection schema relation table mode s).2.tables schema relation =
        (DuckDb.insert connection schema relation other mode s).2.tables schema relation ↔
      core.fails .register = true ∨ (mode = .Truncate ∧ core.fails .delete = true) ∨
        core.fails .insert = true ∨ table.numRows = 0 ∨
        StoredAlike core { target with rows := kept mode target.rows } table other := by
  rw [DuckDb.insert_tables h htarget, DuckDb.insert_tables h htarget, Option.some.injEq]
  by_cases hregister : core.fails .register = true
  · simp [hregister]
  by_cases hdelete : mode = .Truncate ∧ core.fails .delete = true
  · simp [hregister, DuckDb.Core.after, hdelete]
  by_cases hinsert : core.fails .insert = true
  · simp [hregister, DuckDb.Core.after, hdelete, hinsert]
  rw [storedAlike_iff _ _ _ _ hrows]
  have hlength (batch : RecordBatch) (rows : List (List V))
      (hstored : core.stored { target with rows := kept mode target.rows } batch = some rows) :
      rows.length = batch.numRows := by
    rw [← (mapM_eq_some_iff.mp (rows_of_stored _ _ _ _ hstored)).length_eq, List.length_range]
  /- The rows that are added, none where the INSERT is refused. -/
  have hafter (batch : RecordBatch) : (core.after target batch mode).2 =
      { target with rows := kept mode target.rows ++
        (core.stored { target with rows := kept mode target.rows } batch).getD [] } := by
    rw [DuckDb.Core.after, if_neg hdelete]
    simp only [if_neg hinsert]
    cases core.stored { target with rows := kept mode target.rows } batch with
    | none => simp
    | some rows => rfl
  simp only [hregister, hdelete, hinsert, Bool.false_eq_true, if_false, hafter, false_or,
    Table.mk.injEq, true_and, List.append_cancel_left_eq]
  cases hstored : core.stored { target with rows := kept mode target.rows } table with
  | none =>
    cases hstored' : core.stored { target with rows := kept mode target.rows } other with
    | none => simp
    | some rows' =>
      have hlength' := hlength other rows' hstored'
      simp only [Option.getD_none, Option.getD_some, reduceCtorEq, or_false, hrows, ← hlength',
        List.length_eq_zero_iff]
      exact eq_comm
  | some rows =>
    have hlength₁ := hlength table rows hstored
    cases hstored' : core.stored { target with rows := kept mode target.rows } other with
    | none =>
      simp only [Option.getD_none, Option.getD_some, reduceCtorEq, or_false, ← hlength₁,
        List.length_eq_zero_iff]
    | some rows' =>
      have hlength₂ := hlength other rows' hstored'
      simp only [Option.getD_some, Option.some.injEq]
      refine ⟨.inr, fun hsame => hsame.elim (fun hempty => ?_) id⟩
      rw [hempty] at hlength₁ hrows
      rw [← hrows] at hlength₂
      rw [List.length_eq_zero_iff.mp hlength₁, List.length_eq_zero_iff.mp hlength₂]

/-! ### The four adapters -/

theorem fold_nodup {fold : Str → Str} {target : List Str} (h : (target.map fold).Nodup)
    {batches : List RecordBatch} (hnames : ∀ batch ∈ batches, (batchColumns batch).Perm target) :
    ∀ batch ∈ batches, ((batchColumns batch).map fold).Nodup :=
  fun batch hbatch => ((hnames batch hbatch).map fold).nodup_iff.mpr h

/-- A table whose columns are those of the relation is inserted alike in every order by the
adapters of SQLite, MySQL and SQLAlchemy. DuckDB does so where a call fails, there is no row, or
the rows are stored alike at every position. -/
theorem insert_reordered_iff (schema relation : Str) (target : Table V) (mode : InsertMode) :
    (∀ (engine : Engine V Argument) (tables : Tables V) (batches others : List RecordBatch),
      engine.rules = sqliteRules → (target.columns.map engine.rules.fold).Nodup →
      tables schema relation = some target →
      (∀ batch ∈ batches, (batchColumns batch).Perm target.columns) →
      List.Forall₂ Reordered batches others →
      (SqliteDatabase.insert engine tables schema relation (batches.map .ok) mode).2 =
        (SqliteDatabase.insert engine tables schema relation (others.map .ok) mode).2) ∧
    (∀ (engine : Engine V Argument) (fold : Str → Str) (tables : Tables V)
        (batches others : List RecordBatch),
      engine.rules = mySqlRules fold → (target.columns.map engine.rules.fold).Nodup →
      tables schema relation = some target →
      (∀ batch ∈ batches, (batchColumns batch).Perm target.columns) →
      List.Forall₂ Reordered batches others →
      (MySqlDatabase.insert engine tables schema relation (batches.map .ok) mode).2 =
        (MySqlDatabase.insert engine tables schema relation (others.map .ok) mode).2) ∧
    (∀ (core : SqlAlchemy.Core V) (tables : Tables V) (table other : RecordBatch),
      target.columns.Nodup → tables schema relation = some target →
      (batchColumns table).Perm target.columns → Reordered table other →
      (SqlAlchemy.insert core tables schema relation table mode).2 =
        (SqlAlchemy.insert core tables schema relation other mode).2) ∧
    (∀ (core : DuckDb.Core V) (connection : DuckDb.Connection V) (s : DuckDb.State V)
        (table other : RecordBatch),
      DuckDb.Documented core connection schema relation → s.tables schema relation = some target →
      (batchColumns table).Perm target.columns → Reordered table other →
      ((DuckDb.insert connection schema relation table mode s).2.tables schema relation =
          (DuckDb.insert connection schema relation other mode s).2.tables schema relation ↔
        core.fails .register = true ∨ (mode = .Truncate ∧ core.fails .delete = true) ∨
          core.fails .insert = true ∨ table.numRows = 0 ∨
          StoredAlike core { target with rows := kept mode target.rows } table other)) := by
  refine ⟨?_, ?_, ?_, ?_⟩
  · intro engine tables batches others hrules hcolumns _ hnames h
    have hquote : engine.rules.quote = Sql.identifierQuote .Sqlite := by rw [hrules]; rfl
    exact insertWith_reordered (fun session _ _ hreordered hnodup =>
      insertStatement_reordered hquote (by decide) session schema relation hreordered hnodup)
      tables h (fold_nodup hcolumns hnames) mode
  · intro engine fold tables batches others hrules hcolumns _ hnames h
    have hquote : engine.rules.quote = Sql.identifierQuote .MySql := by rw [hrules]; rfl
    exact insertWith_reordered (fun session _ _ hreordered hnodup =>
      insertStatement_reordered hquote (by decide) session schema relation hreordered hnodup)
      tables h (fold_nodup hcolumns hnames) mode
  · intro core tables table other hcolumns _ hnames h
    rw [SqlAlchemy.insert_reordered core tables schema relation h (hnames.nodup_iff.mpr hcolumns)]
  · intro core connection s table other hdocumented htarget _ h
    exact duckDb_insert_iff hdocumented htarget h.1 mode

/-- The columns of `namesBatch` in the order of the table. -/
def sortedBatch : RecordBatch where
  schema := [⟨"first".toList, .Utf8, true⟩, ⟨"last".toList, .Utf8, true⟩]
  columns := [.utf8 [some "Grace".toList, some "Ada".toList], .utf8 [some "Hopper".toList, none]]
  numRows := 2
  wellFormed := by decide

theorem namesBatch_reordered : Reordered sortedBatch namesBatch := ⟨rfl, List.Perm.swap ..⟩

def storeText : CellValue → Option (Option Str)
  | .null => some none
  | .text value => some (some value)
  | _ => none

def textCore : DuckDb.Core (Option Str) where
  fails _ := false
  binds columns types := columns.length = types.length
  cast _ _ value := storeText value
  accepts _ := true

def textAlchemy : SqlAlchemy.Core (Option Str) where
  fails _ := false
  insertMany target rows := (rows.mapM fun row => target.columns.mapM fun column =>
    (SqlAlchemy.Dict.get row column).bind fun p => storeText p.2).map fun rows =>
      { target with rows := target.rows ++ rows }
  byKey target rows rows' h := by
    have hrows : (rows.mapM fun row => target.columns.mapM fun column =>
          (SqlAlchemy.Dict.get row column).bind fun p => storeText p.2) =
        rows'.mapM fun row => target.columns.mapM fun column =>
          (SqlAlchemy.Dict.get row column).bind fun p => storeText p.2 := by
      induction h with
      | nil => rfl
      | cons hhead _ ih => simp only [List.mapM_cons, hhead, ih]
    rw [hrows]

/-- Two orders of the columns in each adapter. -/
theorem two_orders_of_names :
    (SqliteDatabase.insert (textEngine sqliteRules) namesTables "main".toList "names".toList
        ([sortedBatch].map .ok) .Truncate).2 =
      (SqliteDatabase.insert (textEngine sqliteRules) namesTables "main".toList "names".toList
        ([namesBatch].map .ok) .Truncate).2 ∧
    (MySqlDatabase.insert (textEngine (mySqlRules toAsciiLowercase)) namesTables "main".toList
        "names".toList ([sortedBatch].map .ok) .Truncate).2 =
      (MySqlDatabase.insert (textEngine (mySqlRules toAsciiLowercase)) namesTables "main".toList
        "names".toList ([namesBatch].map .ok) .Truncate).2 ∧
    (SqlAlchemy.insert textAlchemy namesTables "main".toList "names".toList sortedBatch
        .Truncate).2 =
      (SqlAlchemy.insert textAlchemy namesTables "main".toList "names".toList namesBatch
        .Truncate).2 ∧
    (DuckDb.insert (DuckDb.twoStatements textCore "main".toList "names".toList) "main".toList
        "names".toList sortedBatch .Truncate ⟨namesTables, fun _ => none⟩).2.tables "main".toList
        "names".toList ≠
      (DuckDb.insert (DuckDb.twoStatements textCore "main".toList "names".toList) "main".toList
        "names".toList namesBatch .Truncate ⟨namesTables, fun _ => none⟩).2.tables "main".toList
        "names".toList := by
  obtain ⟨hsqlite, hmysql, halchemy, hduckdb⟩ :=
    insert_reordered_iff "main".toList "names".toList namesTable .Truncate
  have htarget : namesTables "main".toList "names".toList = some namesTable := Tables.set_self ..
  have hnames : (batchColumns sortedBatch).Perm namesTable.columns := List.Perm.refl _
  have hall : ∀ batch ∈ [sortedBatch], (batchColumns batch).Perm namesTable.columns := by
    rw [List.forall_mem_singleton]
    exact hnames
  have hbatches : List.Forall₂ Reordered [sortedBatch] [namesBatch] :=
    .cons namesBatch_reordered .nil
  refine ⟨hsqlite (textEngine sqliteRules) namesTables _ _ rfl (by decide) htarget hall hbatches,
    hmysql (textEngine (mySqlRules toAsciiLowercase)) toAsciiLowercase namesTables _ _ rfl
      (by decide) htarget hall hbatches,
    halchemy textAlchemy namesTables _ _ (by decide) htarget hnames namesBatch_reordered, ?_⟩
  have hduck := hduckdb textCore _ ⟨namesTables, fun _ => none⟩ sortedBatch namesBatch
    (DuckDb.twoStatements_documented textCore "main".toList "names".toList) htarget hnames
    namesBatch_reordered
  rw [ne_eq, hduck, storedAlike_iff _ _ sortedBatch namesBatch rfl]
  decide

/-- First and last names change places in DuckDB. -/
theorem duckDb_swaps_names :
    ¬ ∀ (core : DuckDb.Core (Option Str)) (connection : DuckDb.Connection (Option Str))
        (schema relation : Str) (target : Table (Option Str)) (mode : InsertMode)
        (s : DuckDb.State (Option Str)) (table other : RecordBatch),
      DuckDb.Documented core connection schema relation → s.tables schema relation = some target →
      (batchColumns table).Perm target.columns → Reordered table other →
      (DuckDb.insert connection schema relation table mode s).2.tables schema relation =
        (DuckDb.insert connection schema relation other mode s).2.tables schema relation := by
  intro h
  have htarget : namesTables "main".toList "names".toList = some namesTable := Tables.set_self ..
  have hsame := h textCore _ "main".toList "names".toList namesTable .Append
    ⟨namesTables, fun _ => none⟩ sortedBatch namesBatch
    (DuckDb.twoStatements_documented textCore "main".toList "names".toList) htarget
    (List.Perm.refl _) namesBatch_reordered
  exact absurd (congrArg (Option.map Table.rows) hsame) (by decide)

end FsspecDb.Insert
