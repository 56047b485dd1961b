import FsspecDb.Sqlite.Chunk
import FsspecDb.Sqlite.Insert
import FsspecDb.Sqlite.Query

/-!
# Write and read

A table that mkdir creates gives back what an insert stored: the same cells in the same order,
in batches of one schema.
-/

namespace FsspecDb.Sqlite
open Text FsspecDb.Insert FsspecDb.Stream Transition

/-- `SELECT *` in the order of insertion. -/
def Server.selectAll (server : Server) (columns : List Ddl.ColumnDef) (rows : List SqliteRow) :
    NativeResult SqliteValue where
  columns := columns.map fun column => (column.name, server.typeName column.declared)
  rows := rows
  fetchError := none
  prepared := .ok (columns.map fun column => (column.name, server.typeName column.declared))

def Server.source (server : Server) (floats : FloatText) (columns : List Ddl.ColumnDef)
    (rows : List SqliteRow) : Source SqliteRow Schema RecordBatch :=
  nativeSource (sqliteReader floats) (server.selectAll columns rows)
    (.Other "SQLite query stream closed".toList)

/-- The field of a batch that is read: integers are `Int64` and floats `Float64`. -/
def readField (field : Field) : Field := ⟨field.name, (kindOf field).dataType, true⟩

/-- In every run of the worker and a receiving caller, the reader has the read schema, as have all
its batches, and these hold the rows of the batches that were written. A run that has not come to
the end of the reader can go on, and is bounded. -/
def ReadsBack (src : Source SqliteRow Schema RecordBatch) (arrowSchema : Schema)
    (batches : List RecordBatch) : Prop :=
  ∃ delivered : List RecordBatch,
    (∀ batch ∈ delivered, batch.schema = arrowSchema.map readField) ∧
    delivered.flatMap batchRows = batches.flatMap batchRows ∧
    (∃ bound, ∀ as t, Run Receiving (start src) as t → .recvEnd ∉ as → as.length ≤ bound) ∧
    ∀ as t, Run Receiving (start src) as t →
      Observes (.ok (arrowSchema.map readField)) (delivered.map .ok) as t

/-- `str(field.type)` is `typeText`. -/
def paField (typeText : DataType → Str) (field : Field) : Ddl.PaField :=
  ⟨field.name, .arrow field.dataType, typeText field.dataType, field.nullable⟩

/-- `mkdir` with the schema creates a table, the insert of the batches in truncate mode returns the
number of their rows, and the query reads them back. -/
def RoundTrips (server : Server) (floats : FloatText) (fs : Ddl.DdlFs) (path : Str)
    (arrowSchema : Schema) (typeText : DataType → Str) (batches : List RecordBatch) : Prop :=
  ∃ sql schema relation columns,
    fs.mkdir path none (some (arrowSchema.map (paField typeText))) = .ok sql ∧
    Ddl.readCreateTable '"' sql = some ((schema, relation), columns) ∧
    ∀ tables : Tables SqliteValue, ∃ stored : List SqliteRow,
      SqliteDatabase.insert (server.engine columns)
          (tables.set schema relation ⟨columns.map Ddl.ColumnDef.name, []⟩) schema relation
          (batches.map .ok) .Truncate =
        (.ok (batches.map RecordBatch.numRows).sum,
          tables.set schema relation ⟨columns.map Ddl.ColumnDef.name, stored⟩) ∧
      ReadsBack (server.source floats columns stored) arrowSchema batches

/-! ### The query -/

theorem flatMap_batchRows (names : List Str) (batches : List RecordBatch)
    (h : ∀ batch ∈ batches, batchColumns batch = names) :
    batches.flatMap batchRows = (batches.flatMap batchCells).map names.zip := by
  induction batches with
  | nil => rfl
  | cons batch batches ih =>
    rw [List.forall_mem_cons] at h
    rw [List.flatMap_cons, List.flatMap_cons, List.map_append, ih h.2, ← batchCells_zip batch, h.1]

section
variable (server : Server) (floats : FloatText) (arrowSchema : Schema) (rows : List SqliteRow)

theorem schemaOf_select :
    schemaOf (server.selectAll (arrowSchema.map columnOf) rows).columns
      ((arrowSchema.map kindOf).map ColumnKind.dataType) = arrowSchema.map readField := by
  induction arrowSchema with
  | nil => rfl
  | cons field fields ih => exact congrArg (List.cons (readField field)) ih

theorem ranks_select (htypes : server.NamesTypes) :
    ((server.selectAll (arrowSchema.map columnOf) rows).columns.map fun column =>
      rank column.2) = (arrowSchema.map kindOf).map ColumnKind.rank := by
  simp only [Server.selectAll, List.map_map]
  exact List.map_congr_left fun field _ => htypes (kindOf field)

/- Without rows the schema is that of the prepared statement. -/
theorem querySchema_select (htypes : server.NamesTypes) :
    (server.source floats (arrowSchema.map columnOf) rows).querySchema =
      .ok (arrowSchema.map readField) := by
  refine congrArg Except.ok ?_
  simp only [List.map_map]
  refine List.map_congr_left fun field _ => ?_
  have hwidest : widest [server.typeName (kindOf field).sqlType] = (kindOf field).rank := by
    rw [← htypes (kindOf field)]
    exact Nat.max_zero _
  show Field.mk field.name (ColumnValues.new [server.typeName (kindOf field).sqlType]).dataType
    true = readField field
  rw [new_dataType, hwidest, (kindOf field).rankType_rank, readField]

variable {server arrowSchema} (htypes : server.NamesTypes) (hne : arrowSchema ≠ [])
include htypes hne

theorem toBatch_cells (cells : List (List CellValue))
    (hcells : ∀ row ∈ cells, List.Forall₂ Fits arrowSchema row) :
    ∃ batch, (server.source floats (arrowSchema.map columnOf) rows).toBatch
        (cells.map (List.map sqliteCell)) = .ok batch ∧
      batch.schema = arrowSchema.map readField ∧ batchCells batch = cells := by
  obtain ⟨batch, hbatch, hread, hcontent⟩ := chunk_read floats
    (server.selectAll (arrowSchema.map columnOf) rows).columns (arrowSchema.map kindOf) cells
    (by simpa [Server.selectAll] using hne) (ranks_select server arrowSchema rows htypes)
    fun row hrow => by
      rw [List.forall₂_map_left_iff]
      exact (hcells row hrow).imp fun _ _ hfits => hfits.1
  rw [schemaOf_select] at hread
  rw [sqliteRowsToBatch_eq] at hbatch
  exact ⟨batch, hbatch, hread, hcontent⟩

/- The batches of the completed chunks, in order. -/
theorem pairs_cells (pairs : List (List SqliteRow × RecordBatch)) (cells : List (List CellValue))
    (hcells : ∀ row ∈ cells, List.Forall₂ Fits arrowSchema row)
    (hchunks : cells.map (List.map sqliteCell) = (pairs.map Prod.fst).flatten)
    (hconverts : ∀ pair ∈ pairs,
      (server.source floats (arrowSchema.map columnOf) rows).toBatch pair.1 = .ok pair.2) :
    (∀ batch ∈ pairs.map Prod.snd, batch.schema = arrowSchema.map readField) ∧
      (pairs.map Prod.snd).flatMap batchCells = cells := by
  induction pairs generalizing cells with
  | nil =>
    have hnil : cells = [] := List.map_eq_nil_iff.mp hchunks
    rw [hnil]
    exact ⟨nofun, rfl⟩
  | cons pair pairs ih =>
    rw [List.map_cons, List.flatten_cons, List.map_eq_append_iff] at hchunks
    obtain ⟨first, rest, rfl, hfirst, hrest⟩ := hchunks
    rw [List.forall_mem_append] at hcells
    rw [List.forall_mem_cons] at hconverts
    obtain ⟨batch, hbatch, hread, hcontent⟩ := toBatch_cells floats rows htypes hne first hcells.1
    obtain rfl : batch = pair.2 := by
      rw [hfirst, hconverts.1] at hbatch
      exact (Except.ok.inj hbatch).symm
    obtain ⟨hschemas, hbatches⟩ := ih rest hcells.2 hrest hconverts.2
    rw [List.map_cons, List.flatMap_cons, hcontent, hbatches]
    exact ⟨List.forall_mem_cons.mpr ⟨hread, hschemas⟩, rfl⟩

/- No chunk fails. -/
theorem completed_cells (pairs : List (List SqliteRow × RecordBatch)) (failure : Option DbError)
    (cells : List (List CellValue)) (hcells : ∀ row ∈ cells, List.Forall₂ Fits arrowSchema row)
    (h : Completed (server.source floats (arrowSchema.map columnOf) rows)
      (cells.map (List.map sqliteCell)) pairs failure) :
    failure = none ∧ cells.map (List.map sqliteCell) = (pairs.map Prod.fst).flatten := by
  have hnone : failure = none := by
    rcases h.stops with ⟨_, hend⟩ | ⟨_, err, hchunk, _⟩
    · exact hend
    · obtain ⟨batch, hbatch, _⟩ := toBatch_cells floats rows htypes hne (chunkAt cells pairs.length)
        fun row hrow => hcells row (mem_chunkAt cells pairs.length row hrow)
      rw [← chunkAt_map, hchunk] at hbatch
      cases hbatch
  exact ⟨hnone, (h.chunked.all hnone).symm⟩

omit hne in
/- What the caller gets of the chunks: their batches, or one empty batch. -/
theorem delivered_cells (pairs : List (List SqliteRow × RecordBatch))
    (hschemas : ∀ batch ∈ pairs.map Prod.snd, batch.schema = arrowSchema.map readField) :
    answer (server.source floats (arrowSchema.map columnOf) rows) pairs none =
        .ok (arrowSchema.map readField) ∧
      ∃ delivered : List RecordBatch,
        items (server.source floats (arrowSchema.map columnOf) rows) pairs none =
          delivered.map .ok ∧
        (∀ batch ∈ delivered, batch.schema = arrowSchema.map readField) ∧
        delivered.flatMap batchCells = (pairs.map Prod.snd).flatMap batchCells := by
  have hquery := querySchema_select server floats arrowSchema rows htypes
  cases pairs with
  | nil =>
    refine ⟨hquery, [RecordBatch.newEmpty (arrowSchema.map readField)], ?_,
      List.forall_mem_singleton.mpr rfl, rfl⟩
    rw [items, hquery]
    rfl
  | cons pair pairs =>
    refine ⟨congrArg Except.ok (hschemas _ (by simp)), (pair :: pairs).map Prod.snd, ?_, hschemas,
      rfl⟩
    rw [List.map_map]
    exact List.append_nil _

omit hne in
/-- The stored rows of the batches are read back. -/
theorem readsBack_cells (hschema : TableSchema arrowSchema) (batches : List RecordBatch)
    (hbatches : ∀ batch ∈ batches, Insertable arrowSchema batch) :
    ReadsBack (server.source floats (arrowSchema.map columnOf)
      ((batches.flatMap batchCells).map (List.map sqliteCell))) arrowSchema batches := by
  have hne := hschema.ne_nil
  have hcells : ∀ row ∈ batches.flatMap batchCells, List.Forall₂ Fits arrowSchema row := by
    intro row hrow
    obtain ⟨batch, hbatch, hmem⟩ := List.mem_flatMap.mp hrow
    exact cells_fit hschema batch (hbatches batch hbatch) row hmem
  obtain ⟨pairs, failure, hcompleted, hbound, hobserves⟩ := source_delivers
    (server.source floats (arrowSchema.map columnOf)
      ((batches.flatMap batchCells).map (List.map sqliteCell)))
  obtain ⟨rfl, hchunks⟩ := completed_cells floats _ htypes hne pairs failure _ hcells hcompleted
  obtain ⟨hschemas, hcontent⟩ := pairs_cells floats _ htypes hne pairs _ hcells hchunks
    hcompleted.converts
  obtain ⟨hanswer, delivered, hitems, hdelivered, hsame⟩ := delivered_cells floats
    ((batches.flatMap batchCells).map (List.map sqliteCell)) htypes pairs hschemas
  have hwritten : batches.flatMap batchRows =
      (batches.flatMap batchCells).map (arrowSchema.map Field.name).zip :=
    flatMap_batchRows _ batches fun batch hbatch => by
      rw [batchColumns, (hbatches batch hbatch).schema]
  have hread : delivered.flatMap batchRows =
      (delivered.flatMap batchCells).map (arrowSchema.map Field.name).zip :=
    flatMap_batchRows _ delivered fun batch hbatch => by
      rw [batchColumns, hdelivered batch hbatch, List.map_map]
      rfl
  refine ⟨delivered, hdelivered, ?_, hbound, fun as t hrun => ?_⟩
  · rw [hread, hsame, hcontent, hwritten]
  · rw [← hanswer, ← hitems]
    exact hobserves as t hrun

end

/-! ### The round trip -/

def declaredType (field : Ddl.PaField) : Str :=
  match field.type with
  | .arrow dataType => ((ColumnKind.ofType dataType).getD .text).sqlType
  | _ => []

/-- A server on which the bound values keep their types, with sqlx's names of the five types. -/
def plainServer : Server where
  store _ arg :=
    match arg with
    | .Bool value => .integer (if value then 1 else 0)
    | .Int64 value => .integer value
    | .Float64 bits => if isNan64 bits then .null else .real bits
    | .Text value => .text value
    | .Blob value => .blob value
    | _ => .null
  typeName declared :=
    if declared = "BIGINT".toList then "INTEGER".toList
    else if declared = "DOUBLE".toList then "REAL".toList
    else if declared = "VARCHAR".toList then "TEXT".toList
    else declared

theorem plainServer_stores : plainServer.StoresByAffinity where
  null _ := rfl
  boolean _ := rfl
  bigint _ := rfl
  double bits h := if_neg (by rw [h]; exact Bool.false_ne_true)
  varchar _ := rfl
  blob _ := rfl

theorem plainServer_names : plainServer.NamesTypes := by
  intro kind
  cases kind <;> decide

def usersSchema : Schema :=
  [⟨"id".toList, .UInt64, false⟩, ⟨"name".toList, .LargeUtf8, true⟩,
    ⟨"score".toList, .Float32, true⟩, ⟨"active".toList, .Boolean, true⟩,
    ⟨"key".toList, .Binary, true⟩]

/-- Two rows; one column holds no value. -/
def usersBatch : RecordBatch where
  schema := usersSchema
  columns := [.uint64 [some 1, some 2], .largeUtf8 [some "ada".toList, none],
    .float32 [some 0x3FC00000, none], .boolean [some true, some false], .binary [none, none]]
  numRows := 2
  wellFormed := by decide

/-- A column without a name. -/
def unnamedSchema : Schema := [⟨[], .Int64, true⟩]

def unnamedBatch : RecordBatch where
  schema := unnamedSchema
  columns := [.int64 [some 1]]
  numRows := 1
  wellFormed := by decide

end FsspecDb.Sqlite
