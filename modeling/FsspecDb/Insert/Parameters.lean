import FsspecDb.Insert.Limits

/-!
# The parameters of one statement

SQLite takes 32766 parameters in a statement and MySQL 65535.
-/

namespace FsspecDb.Insert
open Text Fs Checked

/-- `SQLITE_MAX_VARIABLE_NUMBER` as SQLite sets it. -/
def Sqlite.maxVariableNumber : Nat := 32766

/-- The number of placeholders in a prepared statement of MySQL is a 16-bit integer. -/
def MySql.maxPlaceholders : Nat := 65535

theorem sqlite_withinLimit_iff (schema relation : Str) (validColumns : List Str)
    (batches : BatchReader) (limit : Nat) :
    WithinLimit (fun _ => sqliteBackend) Sqlite.bindArrowValue sqliteRules schema relation
        validColumns batches limit ↔
      ∀ batch ∈ sendable .Sqlite Sqlite.bindArrowValue schema relation validColumns sqliteRules
          batches,
        batch.numRows * batch.columns.length ≤ limit := by
  refine withinLimit_iff (fun _ => rfl) (by decide) rfl (fun a b h => h) ?_ batches limit
  intro hname
  obtain ⟨name, hname⟩ := hname
  simp only [sqliteBackend, hname]
  rfl

theorem mySql_withinLimit_iff {fold : Str → Str}
    (hfold : ∀ a b, toAsciiLowercase a = toAsciiLowercase b → fold a = fold b)
    (schema relation : Str) (validColumns : List Str) (batches : BatchReader) (limit : Nat) :
    WithinLimit (fun _ => mySqlBackend) MySql.bindArrowValue (mySqlRules fold) schema relation
        validColumns batches limit ↔
      ∀ batch ∈ sendable .MySql MySql.bindArrowValue schema relation validColumns (mySqlRules fold)
          batches,
        batch.numRows * batch.columns.length ≤ limit :=
  withinLimit_iff (fun _ => rfl) (by decide) rfl hfold (fun _ => rfl) batches limit

/-- The statements are within the limits if and only if each batch that can be sent is. They are
those that the loop of an insert sends, one for a batch, which binds each of its cells once. -/
theorem statementsWithinLimits_iff (schema relation : Str) (validColumns : List Str)
    (batches : BatchReader) :
    (WithinLimit (fun _ => sqliteBackend) Sqlite.bindArrowValue sqliteRules schema relation
        validColumns batches Sqlite.maxVariableNumber ↔
      ∀ batch ∈ sendable .Sqlite Sqlite.bindArrowValue schema relation validColumns sqliteRules
          batches,
        batch.numRows * batch.columns.length ≤ 32766) ∧
    (∀ fold : Str → Str,
      (∀ a b, toAsciiLowercase a = toAsciiLowercase b → fold a = fold b) →
      (WithinLimit (fun _ => mySqlBackend) MySql.bindArrowValue (mySqlRules fold) schema relation
          validColumns batches MySql.maxPlaceholders ↔
        ∀ batch ∈ sendable .MySql MySql.bindArrowValue schema relation validColumns
            (mySqlRules fold) batches,
          batch.numRows * batch.columns.length ≤ 65535)) ∧
    ∀ (V : Type) (engine : Engine V Argument) (tables : Tables V) (mode : InsertMode),
      Sends sqliteBackend Sqlite.bindArrowValue engine schema relation validColumns batches ∧
      Sends mySqlBackend MySql.bindArrowValue engine schema relation validColumns batches ∧
      (tables schema relation = none →
        issued sqliteBackend Sqlite.bindArrowValue engine tables schema relation batches mode = [] ∧
        issued mySqlBackend MySql.bindArrowValue engine tables schema relation batches mode = []) ∧
      ∀ rows, tables schema relation = some ⟨validColumns, rows⟩ →
        (engine.rules = sqliteRules →
          ∃ sent, sent <+: sendable .Sqlite Sqlite.bindArrowValue schema relation validColumns
              sqliteRules batches ∧
            List.Forall₂ (Binds '"' schema relation) sent (issued sqliteBackend
              Sqlite.bindArrowValue engine tables schema relation batches mode)) ∧
        ∀ fold : Str → Str, engine.rules = mySqlRules fold →
          ∃ sent, sent <+: sendable .MySql MySql.bindArrowValue schema relation validColumns
              (mySqlRules fold) batches ∧
            List.Forall₂ (Binds '\x60' schema relation) sent (issued mySqlBackend
              MySql.bindArrowValue engine tables schema relation batches mode) := by
  refine ⟨sqlite_withinLimit_iff schema relation validColumns batches _,
    fun fold hfold => mySql_withinLimit_iff hfold schema relation validColumns batches _, ?_⟩
  intro V engine tables mode
  refine ⟨insertBatches_sends rfl rfl batches, insertBatches_sends rfl rfl batches,
    fun hnone => ⟨issued_no_table hnone .., issued_no_table hnone ..⟩,
    fun rows htable => ⟨fun hrules => ?_, fun fold hrules => ?_⟩⟩
  · have hbinds := @issued_binds V sqliteBackend Sqlite.bindArrowValue schema relation validColumns
      engine nofun (by rw [hrules]; rfl) Sqlite.bindArrowValue_value tables rows htable batches mode
    rw [hrules] at hbinds
    exact hbinds
  · have hbinds := @issued_binds V mySqlBackend MySql.bindArrowValue schema relation validColumns
      engine nofun (by rw [hrules]; rfl) MySql.bindArrowValue_value tables rows htable batches mode
    rw [hrules] at hbinds
    exact hbinds

/-- A batch with one column of zeros. -/
def ids (n : Nat) : RecordBatch where
  schema := [⟨"id".toList, .Int64, false⟩]
  columns := [.int64 (List.replicate n (some 0))]
  numRows := n
  wellFormed := by
    constructor
    · rfl
    · intro column hcolumn
      rw [List.mem_singleton] at hcolumn
      rw [hcolumn]
      simp [ArrowArray.length, ArrowArray.valid]
    · intro p hp _
      rw [List.zip_cons_cons, List.zip_nil_left, List.mem_singleton] at hp
      rw [hp]
      simp [ArrowArray.valid]

def idsTables : Tables Unit :=
  Tables.set (fun _ _ => none) "main".toList "ids".toList ⟨["id".toList], []⟩

theorem ids_within_limits :
    WithinLimit (fun _ => sqliteBackend) Sqlite.bindArrowValue sqliteRules "main".toList
        "ids".toList ["id".toList] [.ok (ids 3)] Sqlite.maxVariableNumber ∧
      WithinLimit (fun _ => mySqlBackend) MySql.bindArrowValue (mySqlRules toAsciiLowercase)
        "main".toList "ids".toList ["id".toList] [.ok (ids 3)] MySql.maxPlaceholders ∧
      (∃ sent, sent <+: sendable .Sqlite Sqlite.bindArrowValue "main".toList "ids".toList
          ["id".toList] sqliteRules [.ok (ids 3)] ∧
        List.Forall₂ (Binds '"' "main".toList "ids".toList) sent (issued sqliteBackend
          Sqlite.bindArrowValue (takesAll sqliteRules) idsTables "main".toList "ids".toList
          [.ok (ids 3)] .Append)) ∧
      (issued sqliteBackend Sqlite.bindArrowValue (takesAll sqliteRules) idsTables "main".toList
        "ids".toList [.ok (ids 3)] .Append).map (fun statement => statement.2.length) = [3] := by
  obtain ⟨hsqlite, hmysql, hissued⟩ := statementsWithinLimits_iff "main".toList "ids".toList
    ["id".toList] [.ok (ids 3)]
  have hbinds := ((hissued Unit (takesAll sqliteRules) idsTables .Append).2.2.2 []
    (Tables.set_self ..)).1 rfl
  exact ⟨hsqlite.mpr (by decide +kernel),
    (hmysql toAsciiLowercase fun a b h => h).mpr (by decide +kernel), hbinds, by decide +kernel⟩

theorem ids_size (n : Nat) : (ids n).numRows * (ids n).columns.length = n :=
  Nat.mul_one n

/- A batch of ids is sent whatever its length. -/
theorem ids_sendable {dialect : Dialect} {bind : ArrowArray → Nat → Except DbError Argument}
    (hbind : ∀ values row, ∃ arg, bind (.int64 values) row = .ok arg) (rules : Rules) (n : Nat)
    (hn : 0 < n) :
    sendable dialect bind "main".toList "ids".toList ["id".toList] rules [.ok (ids n)] =
      [ids n] := by
  obtain ⟨sql, hsql⟩ := (Sql.exists_insertSql_iff dialect "main".toList "ids".toList
    ["id".toList] n).mpr ⟨by decide, hn, by decide, by decide⟩
  have hrows : ∀ row ∈ List.range n, ∃ args,
      (ids n).columns.mapM (fun column => bind column row) = .ok args := by
    intro row _
    rw [exists_mapM_eq_ok_iff]
    intro column hcolumn
    obtain rfl := List.mem_singleton.mp hcolumn
    exact hbind _ row
  obtain ⟨values, hvalues⟩ := exists_mapM_eq_ok_iff.mpr hrows
  have hstatement : statementOf dialect bind "main".toList "ids".toList (ids n) =
      .ok (sql, values.flatten) :=
    bind_eq_ok_iff.mpr ⟨sql, hsql, bind_eq_ok_iff.mpr
      ⟨values.flatten, map_eq_ok_iff.mpr ⟨values, hvalues, rfl⟩, rfl⟩⟩
  have hknown : unknownColumn ["id".toList] (batchColumns (ids n)) = none := by
    have hcolumns : batchColumns (ids n) = ["id".toList] := rfl
    rw [hcolumns]
    decide
  have hempty : (ids n).numRows ≠ 0 := Nat.ne_of_gt hn
  rw [sendable, if_neg hempty, hknown]
  dsimp only
  rw [hstatement]
  dsimp only
  split
  · rfl
  · rfl

/-- One column is too long for SQLite from 32767 rows on and for MySQL from 65536. -/
theorem ids_exceed_limits :
    ¬ WithinLimit (fun _ => sqliteBackend) Sqlite.bindArrowValue sqliteRules "main".toList
        "ids".toList ["id".toList] [.ok (ids 32767)] Sqlite.maxVariableNumber ∧
      ¬ WithinLimit (fun _ => mySqlBackend) MySql.bindArrowValue (mySqlRules toAsciiLowercase)
        "main".toList "ids".toList ["id".toList] [.ok (ids 65536)] MySql.maxPlaceholders := by
  constructor
  · have hbind : ∀ values row, ∃ arg, Sqlite.bindArrowValue (.int64 values) row = .ok arg := by
      intro values row
      unfold Sqlite.bindArrowValue
      split
      · exact ⟨_, rfl⟩
      · exact ⟨_, rfl⟩
    rw [sqlite_withinLimit_iff, ids_sendable hbind _ _ (by decide)]
    intro h
    have hlimit := h _ (List.mem_singleton_self _)
    rw [ids_size] at hlimit
    exact absurd hlimit (by decide)
  · have hbind : ∀ values row, ∃ arg, MySql.bindArrowValue (.int64 values) row = .ok arg := by
      intro values row
      unfold MySql.bindArrowValue
      split
      · exact ⟨_, rfl⟩
      · exact ⟨_, rfl⟩
    rw [mySql_withinLimit_iff fun a b h => h, ids_sendable hbind _ _ (by decide)]
    intro h
    have hlimit := h _ (List.mem_singleton_self _)
    rw [ids_size] at hlimit
    exact absurd hlimit (by decide)

end FsspecDb.Insert
