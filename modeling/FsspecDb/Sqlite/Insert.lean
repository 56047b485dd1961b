import FsspecDb.Insert.Atomic
import FsspecDb.Lib.Keyed
import FsspecDb.Sql.Intended
import FsspecDb.Sqlite.Cells
import Mathlib.Data.List.Nodup

/-!
# An insert into a table that mkdir created

What SQLite and sqlx do with the types of the CREATE TABLE, and the rows that an insert stores
when no command fails for a reason of its own.
-/

namespace FsspecDb.Sqlite
open Text Checked FsspecDb.Insert

/-- SQLite's storing of a bound value in a column of a declared type, and the name that sqlx
gives the type. -/
structure Server where
  store : Str → Argument → SqliteValue
  typeName : Str → Str

namespace Server

/-- The affinities of the types that `mkdir` emits leave a value of the type as it is; NULL is
stored as NULL. -/
structure StoresByAffinity (server : Server) : Prop where
  null : ∀ declared, server.store declared .Null = .null
  boolean : ∀ value, server.store "BOOLEAN".toList (.Bool value) =
    .integer (if value then 1 else 0)
  bigint : ∀ value, server.store "BIGINT".toList (.Int64 value) = .integer value
  double : ∀ bits, isNan64 bits = false →
    server.store "DOUBLE".toList (.Float64 bits) = .real bits
  varchar : ∀ value, server.store "VARCHAR".toList (.Text value) = .text value
  blob : ∀ value, server.store "BLOB".toList (.Blob value) = .blob value

/-- The names of the declared types contain the words that `ColumnValues::new` looks for: "int"
for BIGINT, "bool" for BOOLEAN and so on, and none that it looks for before. -/
def NamesTypes (server : Server) : Prop :=
  ∀ kind : ColumnKind, Sqlite.rank (server.typeName kind.sqlType) = kind.rank

/-- The table of a CREATE TABLE, in a database where no command fails. -/
def engine (server : Server) (columns : List Ddl.ColumnDef) : Engine SqliteValue Argument where
  rules := sqliteRules
  coerce name arg :=
    (columns.find? fun column => column.name = name).bind fun column =>
      let value := server.store column.declared arg
      if column.notNull && value.isNull then none else some value
  default _ name :=
    (columns.find? fun column => column.name = name).bind fun column =>
      if column.notNull then none else some .null
  fails _ := none
  rejected := .Other "constraint failed".toList

theorem store_cell {server : Server} (h : server.StoresByAffinity) (kind : ColumnKind)
    (cell : CellValue) (hcell : kind.Admits cell) :
    server.store kind.sqlType (sqliteArgument cell) = sqliteCell cell := by
  cases cell with
  | null => exact h.null _
  | bool value => cases kind <;> first | exact hcell.elim | exact h.boolean value
  | int value => cases kind <;> first | exact hcell.elim | exact h.bigint _
  | float bits => cases kind <;> first | exact hcell.elim | exact h.double bits hcell
  | text value => cases kind <;> first | exact hcell.elim | exact h.varchar value
  | blob value => cases kind <;> first | exact hcell.elim | exact h.blob value

end Server

/-! ### The fields of a schema -/

/-- The kind of a field; one of another type has none. -/
def kindOf (field : Field) : ColumnKind := (ColumnKind.ofType field.dataType).getD .text

theorem ofType_kindOf (field : Field)
    (h : (ColumnKind.ofType field.dataType).isSome = true) :
    ColumnKind.ofType field.dataType = some (kindOf field) := by
  rw [kindOf]
  cases hkind : ColumnKind.ofType field.dataType with
  | none => rw [hkind] at h; exact absurd h (by decide)
  | some kind => rfl

def columnOf (field : Field) : Ddl.ColumnDef :=
  ⟨field.name, (kindOf field).sqlType, !field.nullable⟩

/-- The schemas of the round trip: some column, names that SQLite tells apart, and types with a
kind. -/
structure TableSchema (arrowSchema : Schema) : Prop where
  ne_nil : arrowSchema ≠ []
  distinct : ((arrowSchema.map Field.name).map toAsciiLowercase).Nodup
  kinds : ∀ field ∈ arrowSchema, (ColumnKind.ofType field.dataType).isSome = true

/-- A cell that the column of a field takes. -/
def Fits (field : Field) (cell : CellValue) : Prop :=
  (kindOf field).Admits cell ∧ (field.nullable = false → cell ≠ .null)

theorem slotValue_ne_null {α : Type} (values : List (Option α)) (row : Nat) (value : α → CellValue)
    (hvalid : (values.map Option.isSome).all id = true) (hrow : row < values.length)
    (h : ∀ v, value v ≠ .null) : slotValue values row value ≠ .null := by
  obtain ⟨slot, hslot⟩ : ∃ slot, values[row]? = some slot := ⟨_, List.getElem?_eq_getElem hrow⟩
  cases slot with
  | none =>
    rw [List.all_map, List.all_eq_true] at hvalid
    exact absurd (hvalid none (List.mem_of_getElem? hslot)) Bool.false_ne_true
  | some v =>
    rw [slotValue, hslot]
    exact h v

theorem cell_ne_null (array : ArrowArray) (row : Nat) (kind : ColumnKind)
    (hkind : ColumnKind.ofType array.dataType = some kind) (hvalid : array.valid.all id = true)
    (hrow : row < array.length) : array.cell row ≠ .null := by
  rw [ArrowArray.length] at hrow
  cases array with
  | null | date32 | date64 | time32 | time64 | timestamp | unsupported => cases hkind
  | _ values =>
    exact slotValue_ne_null values row _ hvalid (by simpa [ArrowArray.valid] using hrow)
      fun v h => by cases h

/-- A batch of the schema whose values SQLite can hold. -/
structure Insertable (arrowSchema : Schema) (batch : RecordBatch) : Prop where
  schema : batch.schema = arrowSchema
  storable : ∀ array ∈ batch.columns, Storable array

theorem cells_fit {arrowSchema : Schema} (hschema : TableSchema arrowSchema) (batch : RecordBatch)
    (h : Insertable arrowSchema batch) :
    ∀ cells ∈ batchCells batch, List.Forall₂ Fits arrowSchema cells := by
  intro cells hcells
  obtain ⟨row, hrow, rfl⟩ := List.mem_map.mp hcells
  rw [List.mem_range] at hrow
  have htypes : List.Forall₂ Eq (arrowSchema.map Field.dataType)
      (batch.columns.map ArrowArray.dataType) := by
    rw [List.forall₂_eq_eq_eq, batch.wellFormed.types, h.schema]
  rw [List.forall₂_map_left_iff, List.forall₂_map_right_iff, List.forall₂_iff_zip] at htypes
  rw [List.forall₂_map_right_iff, List.forall₂_iff_zip]
  refine ⟨htypes.1, fun {field array} hpair => ?_⟩
  obtain ⟨hfield, harray⟩ := List.of_mem_zip hpair
  have hkind : ColumnKind.ofType array.dataType = some (kindOf field) := by
    rw [← htypes.2 hpair]
    exact ofType_kindOf field (hschema.kinds field hfield)
  refine ⟨cell_admits array row _ hkind (h.storable array harray), fun hnullable => ?_⟩
  rw [← h.schema] at hpair
  have hlength := batch.wellFormed.lengths array harray
  exact cell_ne_null array row _ hkind (batch.wellFormed.nulls _ hpair hnullable)
    (by rwa [hlength])

/-! ### Storing a row -/

section
variable {server : Server} (hstore : server.StoresByAffinity)
variable {arrowSchema : Schema} (hschema : TableSchema arrowSchema)
include hstore hschema

theorem coerce_cell (field : Field) (hfield : field ∈ arrowSchema)
    (cell : CellValue) (hfits : Fits field cell) :
    (server.engine (arrowSchema.map columnOf)).coerce field.name (sqliteArgument cell) =
      some (sqliteCell cell) := by
  have hfind : (arrowSchema.map columnOf).find? (fun column => column.name = field.name) =
      some (columnOf field) := by
    refine Keyed.find_key _ Ddl.ColumnDef.name ?_ _ (List.mem_map_of_mem hfield) _ fun _ _ => rfl
    rw [List.map_map]
    exact List.Nodup.of_map _ hschema.distinct
  have hnull : (!field.nullable && (sqliteCell cell).isNull) = false := by
    cases hnullable : field.nullable with
    | true => rfl
    | false =>
      have hcell := hfits.2 hnullable
      cases cell <;> first | exact absurd rfl hcell | rfl
  show ((arrowSchema.map columnOf).find? _).bind _ = _
  rw [hfind, Option.bind_some]
  simp only [columnOf, Server.store_cell hstore _ cell hfits.1, hnull, Bool.false_eq_true, if_false]

theorem storeRow_cells (rows : List SqliteRow) (cells : List CellValue)
    (hcells : List.Forall₂ Fits arrowSchema cells) :
    (server.engine (arrowSchema.map columnOf)).storeRow (arrowSchema.map Field.name) rows
      (arrowSchema.map Field.name) (cells.map sqliteArgument) = some (cells.map sqliteCell) := by
  unfold Engine.storeRow
  rw [mapM_eq_some_iff, List.forall₂_map_left_iff, List.forall₂_map_right_iff, List.forall₂_iff_zip]
  have hzip := List.forall₂_iff_zip.mp hcells
  refine ⟨hcells.length_eq, fun {field cell} hpair => ?_⟩
  have hfind : ((arrowSchema.map Field.name).zip (cells.map sqliteArgument)).find? (fun p =>
      toAsciiLowercase p.1 = toAsciiLowercase field.name) =
        some (field.name, sqliteArgument cell) := by
    refine Keyed.find_key _ (fun p => toAsciiLowercase p.1) ?_ (field.name, sqliteArgument cell) ?_
      _ fun _ _ => rfl
    · have hlength : (arrowSchema.map Field.name).length ≤ (cells.map sqliteArgument).length := by
        simp [hcells.length_eq]
      have hfst := congrArg (List.map toAsciiLowercase) (List.map_fst_zip hlength)
      have hdistinct := hschema.distinct
      rw [← hfst, List.map_map] at hdistinct
      exact hdistinct
    · rw [List.zip_map]
      exact List.mem_map_of_mem hpair
  have hfold : (server.engine (arrowSchema.map columnOf)).rules.fold = toAsciiLowercase := rfl
  simp only [hfold, hfind]
  exact coerce_cell hstore hschema field (List.of_mem_zip hpair).1 cell (hzip.2 hpair)

/- The rows of a batch, one after the other. -/
theorem storeRows_cells (rows : List SqliteRow) (cells : List (List CellValue))
    (hcells : ∀ row ∈ cells, List.Forall₂ Fits arrowSchema row) :
    (server.engine (arrowSchema.map columnOf)).storeRows (arrowSchema.map Field.name)
      (arrowSchema.map Field.name) rows (cells.map (List.map sqliteArgument)) =
        some (rows ++ cells.map (List.map sqliteCell)) := by
  induction cells generalizing rows with
  | nil => exact congrArg some (List.append_nil rows).symm
  | cons row cells ih =>
    rw [List.forall_mem_cons] at hcells
    rw [List.map_cons, Engine.storeRows, storeRow_cells hstore hschema rows row hcells.1,
      Option.bind_eq_bind, Option.bind_some, ih _ hcells.2, List.append_assoc]
    rfl

theorem insertRows_cells (rows : List SqliteRow) (cells : List (List CellValue))
    (hcells : ∀ row ∈ cells, List.Forall₂ Fits arrowSchema row) :
    (server.engine (arrowSchema.map columnOf)).insertRows ⟨arrowSchema.map Field.name, rows⟩
      (arrowSchema.map Field.name) (cells.map (List.map sqliteArgument)) =
        some ⟨arrowSchema.map Field.name, rows ++ cells.map (List.map sqliteCell)⟩ := by
  unfold Engine.insertRows
  rw [if_neg, if_neg, if_neg, storeRows_cells hstore hschema rows cells hcells]
  · rfl
  · intro hgiven
    obtain ⟨args, hargs, hlength⟩ := hgiven
    obtain ⟨row, hrow, rfl⟩ := List.mem_map.mp hargs
    exact hlength (by simp [(hcells row hrow).length_eq])
  · exact fun h => absurd h.1 (by simp [Server.engine, sqliteRules])
  · intro hall
    obtain ⟨name, hname, hnone⟩ := hall
    exact hnone name hname rfl

/-! ### Writing a batch -/

omit hstore in
/- Every value of a batch is bound. -/
theorem bindRows_cells (batch : RecordBatch) (h : Insertable arrowSchema batch) :
    bindRows bindArrowValue batch =
      .ok ((batchCells batch).map (List.map sqliteArgument)).flatten := by
  have hrows : ((List.range batch.numRows).mapM fun row =>
      batch.columns.mapM fun column => bindArrowValue column row) =
        .ok ((batchCells batch).map (List.map sqliteArgument)) := by
    rw [mapM_eq_ok_iff, batchCells, List.map_map, List.forall₂_map_right_iff, List.forall₂_same]
    intro row _
    rw [mapM_eq_ok_iff, Function.comp_apply, List.map_map, List.forall₂_map_right_iff,
      List.forall₂_same]
    intro array harray
    obtain ⟨field, hfield, htype⟩ : ∃ field ∈ arrowSchema, field.dataType = array.dataType := by
      have hmem := List.mem_map_of_mem (f := ArrowArray.dataType) harray
      rw [batch.wellFormed.types, h.schema] at hmem
      exact List.mem_map.mp hmem
    have hkind := ofType_kindOf field (hschema.kinds field hfield)
    rw [htype] at hkind
    exact bindArrowValue_eq array row _ hkind (h.storable array harray)
  rw [bindRows, hrows]
  rfl

variable (hvalid : ∀ field ∈ arrowSchema, Sql.ValidIdentifier field.name)
variable {schema relation : Str} (hname : Sql.ValidIdentifier schema)
variable (hrelation : Sql.ValidIdentifier relation)
include hvalid hname hrelation

theorem write_cells (session : Session SqliteValue) (rows : List SqliteRow)
    (htable : session.working schema relation = some ⟨arrowSchema.map Field.name, rows⟩)
    (batch : RecordBatch) (h : Insertable arrowSchema batch) (hrows : 0 < batch.numRows) :
    sqliteBackend.write (server.engine (arrowSchema.map columnOf)) session schema relation batch =
      (.ok batch.numRows, { session with
        working := session.working.set schema relation ⟨arrowSchema.map Field.name,
          rows ++ (batchCells batch).map (List.map sqliteCell)⟩
        commands := session.commands + 1 }) := by
  have hcolumns : batchColumns batch = arrowSchema.map Field.name := by
    rw [batchColumns, h.schema]
  have hfit := cells_fit hschema batch h
  obtain ⟨sql, hsql⟩ := (Sql.exists_insertSql_iff .Sqlite schema relation
    (arrowSchema.map Field.name) batch.numRows).mpr ⟨by simpa using hschema.ne_nil, hrows,
      ⟨hname, hrelation⟩, by simpa using hvalid⟩
  have hparse := Sql.parse_insertSql .Sqlite schema relation _ _ sql (by decide) hsql
  have hvalues : ((batchCells batch).map (List.map sqliteArgument)).length = batch.numRows := by
    rw [List.length_map, batchCells, List.length_map, List.length_range]
  have hgroups : Engine.splitGroups (List.replicate batch.numRows
      (arrowSchema.map Field.name).length)
        ((batchCells batch).map (List.map sqliteArgument)).flatten =
          some ((batchCells batch).map (List.map sqliteArgument)) := by
    rw [← hvalues]
    refine splitGroups_flatten _ _ fun args hargs => ?_
    obtain ⟨cells, hcells, rfl⟩ := List.mem_map.mp hargs
    simp [(hfit cells hcells).length_eq]
  have hrun : (server.engine (arrowSchema.map columnOf)).runStatement session.working
      (.insert schema relation (arrowSchema.map Field.name)
        (List.replicate batch.numRows (arrowSchema.map Field.name).length))
      ((batchCells batch).map (List.map sqliteArgument)).flatten =
        some (batch.numRows, session.working.set schema relation ⟨arrowSchema.map Field.name,
          rows ++ (batchCells batch).map (List.map sqliteCell)⟩) := by
    simp only [Engine.runStatement, htable, hgroups, Option.bind_eq_bind, Option.bind_some,
      insertRows_cells hstore hschema rows _ hfit, hvalues]
  show insertStatement .Sqlite bindArrowValue _ session schema relation batch = _
  unfold insertStatement
  rw [hcolumns, hsql, bindRows_cells hschema batch h]
  have hquote : Sql.parseStatement (server.engine (arrowSchema.map columnOf)).rules.quote sql =
      some (.insert schema relation (arrowSchema.map Field.name)
        (List.replicate batch.numRows (arrowSchema.map Field.name).length)) := hparse
  show (server.engine (arrowSchema.map columnOf)).execute session sql _ = _
  unfold Engine.execute
  rw [hquote, Option.bind_some, hrun]
  rfl

/-! ### The insert -/

theorem insertBatches_cells (batches : List RecordBatch)
    (hbatches : ∀ batch ∈ batches, Insertable arrowSchema batch) (session : Session SqliteValue)
    (rows : List SqliteRow)
    (htable : session.working schema relation = some ⟨arrowSchema.map Field.name, rows⟩)
    (inserted : Nat) :
    ∃ session', insertBatches sqliteBackend (server.engine (arrowSchema.map columnOf)) schema
        relation (arrowSchema.map Field.name) (batches.map .ok) session inserted =
          (.ok (inserted + (batches.map RecordBatch.numRows).sum), session') ∧
      session'.working = session.working.set schema relation ⟨arrowSchema.map Field.name,
        rows ++ (batches.flatMap batchCells).map (List.map sqliteCell)⟩ := by
  induction batches generalizing session rows inserted with
  | nil =>
    refine ⟨session, rfl, ?_⟩
    rw [List.flatMap_nil, List.map_nil, List.append_nil, Tables.set_eq_self _ _ _ _ htable]
  | cons batch batches ih =>
    rw [List.forall_mem_cons] at hbatches
    rw [List.map_cons, insertBatches]
    split
    · next hempty =>
      obtain ⟨session', hok, hworking⟩ := ih hbatches.2 session rows htable inserted
      have hnone : batchCells batch = [] := by rw [batchCells, hempty]; rfl
      refine ⟨session', ?_, ?_⟩
      · rw [hok, List.map_cons, List.sum_cons, hempty, Nat.zero_add]
      · rw [hworking, List.flatMap_cons, hnone, List.nil_append]
    · next hrows =>
      have hknown : unknownColumn (arrowSchema.map Field.name) (batchColumns batch) = none := by
        rw [batchColumns, hbatches.1.schema, unknownColumn, List.find?_eq_none]
        intro column hcolumn
        obtain ⟨field, hfield, rfl⟩ := List.mem_map.mp hcolumn
        simpa using ⟨field, hfield, rfl⟩
      rw [hknown, write_cells hstore hschema hvalid hname hrelation session rows htable batch
        hbatches.1 (Nat.pos_of_ne_zero hrows)]
      obtain ⟨session', hok, hworking⟩ := ih hbatches.2
        { session with
          working := session.working.set schema relation ⟨arrowSchema.map Field.name,
            rows ++ (batchCells batch).map (List.map sqliteCell)⟩
          commands := session.commands + 1 } _ (Tables.set_self ..) (inserted + batch.numRows)
      refine ⟨session', ?_, ?_⟩
      · rw [List.map_cons, List.sum_cons, ← Nat.add_assoc]
        exact hok
      · rw [hworking, Tables.set_set, List.flatMap_cons, List.map_append, List.append_assoc]

variable (server) in
omit hstore hschema hvalid in
theorem tableColumns_cells (tables : Tables SqliteValue) (before : List SqliteRow)
    (htable : tables schema relation = some ⟨arrowSchema.map Field.name, before⟩) :
    tableColumns sqliteBackend (server.engine (arrowSchema.map columnOf)) ⟨tables, tables, 0⟩
        schema relation = (.ok (arrowSchema.map Field.name), ⟨tables, tables, 1⟩) := by
  obtain ⟨text, htext⟩ := (Sql.exists_qualifiedName_iff .Sqlite schema relation).mpr
    ⟨hname, hrelation⟩
  have hcheck : sqliteBackend (V := SqliteValue).checkNames schema relation = .ok () := by
    show (Sql.qualifiedName .Sqlite schema relation).map (fun _ => ()) = .ok ()
    rw [htext]
    rfl
  have hfails (n : Nat) : (server.engine (arrowSchema.map columnOf)).fails n = none := rfl
  simp only [tableColumns, hcheck, hfails, htable, Nat.zero_add]

variable (server) in
omit hstore hschema hvalid in
theorem truncateTable_cells (tables : Tables SqliteValue) (before : List SqliteRow)
    (htable : tables schema relation = some ⟨arrowSchema.map Field.name, before⟩) (n : Nat) :
    truncateTable sqliteBackend (server.engine (arrowSchema.map columnOf)) ⟨tables, tables, n⟩
        schema relation .Truncate =
      (.ok (), ⟨tables, tables.set schema relation ⟨arrowSchema.map Field.name, []⟩, n + 1⟩) := by
  obtain ⟨text, htext⟩ := (Sql.exists_qualifiedName_iff .Sqlite schema relation).mpr
    ⟨hname, hrelation⟩
  have hparse : Sql.parseStatement (server.engine (arrowSchema.map columnOf)).rules.quote
      ("DELETE FROM ".toList ++ text) = some (.delete schema relation) :=
    Sql.parse_delete .Sqlite schema relation text htext
  have hdialect : Sql.qualifiedName (sqliteBackend (V := SqliteValue)).dialect schema relation =
      .ok text := htext
  have hfails (n : Nat) : (server.engine (arrowSchema.map columnOf)).fails n = none := rfl
  have hexecute : (server.engine (arrowSchema.map columnOf)).execute ⟨tables, tables, n⟩
      ("DELETE FROM ".toList ++ text) [] = (.ok before.length,
        ⟨tables, tables.set schema relation ⟨arrowSchema.map Field.name, []⟩, n + 1⟩) := by
    simp only [Engine.execute, hfails, hparse, Option.bind_some, Engine.runStatement, htable,
      Option.bind_eq_bind, Engine.answer]
  have hverb : (sqliteBackend (V := SqliteValue)).truncateVerb = "DELETE FROM ".toList := rfl
  simp only [truncateTable, hdialect, hverb, hexecute]
  rfl

/-- The insert of all batches: the table holds their cells, and nothing else is changed. -/
theorem insert_cells (tables : Tables SqliteValue) (before : List SqliteRow)
    (htable : tables schema relation = some ⟨arrowSchema.map Field.name, before⟩)
    (batches : List RecordBatch) (hbatches : ∀ batch ∈ batches, Insertable arrowSchema batch) :
    SqliteDatabase.insert (server.engine (arrowSchema.map columnOf)) tables schema relation
        (batches.map .ok) .Truncate =
      (.ok (batches.map RecordBatch.numRows).sum, tables.set schema relation
        ⟨arrowSchema.map Field.name,
          (batches.flatMap batchCells).map (List.map sqliteCell)⟩) := by
  have hread := tableColumns_cells server hname hrelation tables before htable
  have hdelete := truncateTable_cells server hname hrelation tables before htable 2
  have hfails (n : Nat) : (server.engine (arrowSchema.map columnOf)).fails n = none := rfl
  obtain ⟨session', hok, hworking⟩ := insertBatches_cells hstore hschema hvalid hname hrelation
    batches hbatches ⟨tables, tables.set schema relation ⟨arrowSchema.map Field.name, []⟩, 3⟩ []
    (Tables.set_self ..) 0
  rw [Nat.zero_add] at hok
  unfold SqliteDatabase.insert insertWith
  simp only [hread, Engine.begin, hfails, hdelete, hok, Engine.commit, hworking, Tables.set_set,
    List.nil_append]

end

end FsspecDb.Sqlite
