import FsspecDb.Stream.MySqlColumns
import FsspecDb.Stream.PostgresColumns

/-!
# Queries of the two servers (postgres.rs, mysql.rs)

The worker's chunks, the conversion of their values and the two channels together: the caller
sees the rows of the result, each value as its declared type says, and never a part of them as
the whole.
-/

namespace FsspecDb.Stream
open Transition Checked FsspecDb.Insert

variable {Raw Column : Type}

/-- What sqlx gives: a row has a value for each column of the result, and where there are no rows
preparing the statement tells the columns. -/
structure RowsFit (result : NativeResult Raw) : Prop where
  columns : result.columns ≠ []
  width : ∀ row ∈ result.rows, row.length = result.columns.length
  prepared : result.rows = [] → ∀ columns, result.prepared = .ok columns →
    columns = result.columns

section
variable (reader : DeclaredReader Raw Column) (result : NativeResult Raw) (closed : DbError)

/-- The result without Arrow: a chunk comes to the cells that its rows say by the declared types,
or fails with the first row that has a value which does not convert. -/
def cellSource : Source (List Raw) Schema (List (List CellValue)) where
  rows := result.rows
  fetchError := result.fetchError
  toBatch := List.mapM (rowCells reader result.columns)
  schema _ := declaredSchema reader result.columns
  querySchema := result.prepared.map (declaredSchema reader)
  newEmpty _ := []
  closed := closed

/-- What `query` answers and its reader yields, `header` and `all`, is the result: every batch has
the declared schema, and the batches are the cells of the chunks of `QUERY_BATCH_SIZE` rows, in
order, up to the first chunk that is not fetched or has a row which does not convert. -/
structure Tells (header : Except DbError Schema) (all : List (Except DbError RecordBatch)) :
    Prop where
  schema : ItemsMatch RecordBatch.schema (declaredSchema reader result.columns) all
  cells : ∃ pairs failure, Completed (cellSource reader result closed) result.rows pairs failure ∧
    Chunked result.rows (pairs.map Prod.fst) failure ∧
    header = answer (cellSource reader result closed) pairs failure ∧
    all.map (Except.map batchCells) = items (cellSource reader result closed) pairs failure

variable (hfit : RowsFit result)
include hfit

theorem chunk_cells (k : Nat) :
    (∀ err, rowsToBatch reader.toColumnReader result.columns (chunkAt result.rows k) = .error err ↔
      (cellSource reader result closed).toBatch (chunkAt result.rows k) = .error err) ∧
    ∀ batch, rowsToBatch reader.toColumnReader result.columns (chunkAt result.rows k) = .ok batch →
      batch.schema = declaredSchema reader result.columns ∧
        (cellSource reader result closed).toBatch (chunkAt result.rows k) =
          .ok (batchCells batch) :=
  rowsToBatch_cells reader result.columns (chunkAt result.rows k) hfit.columns
    fun row hrow => hfit.width row (mem_chunkAt result.rows k row hrow)

section
variable {pairs : List (List (List Raw) × RecordBatch)} {failure : Option DbError}
  (h : Completed (nativeSource reader.toColumnReader result closed) result.rows pairs failure)
include h

/- The chunks that the worker completes are completed as cells. -/
theorem cells_of_completed :
    Completed (cellSource reader result closed) result.rows
      (pairs.map fun pair => (pair.1, batchCells pair.2)) failure where
  chunks k pair hpair := by
    rw [List.getElem?_map, Option.map_eq_some_iff] at hpair
    obtain ⟨found, hfound, rfl⟩ := hpair
    obtain ⟨hfetched, hchunk, hbatch⟩ := h.chunks k found hfound
    rw [hchunk] at hbatch
    exact ⟨hfetched, hchunk, by
      rw [hchunk]; exact ((chunk_cells reader result closed hfit k).2 found.2 hbatch).2⟩
  stops := by
    rw [List.length_map]
    rcases h.stops with hend | ⟨hfetched, err, hchunk, herr⟩
    · exact .inl hend
    · exact .inr ⟨hfetched, err, ((chunk_cells reader result closed hfit _).1 err).mp hchunk, herr⟩

theorem schemas_of_completed :
    ∀ pair ∈ pairs, pair.2.schema = declaredSchema reader result.columns := by
  intro pair hpair
  obtain ⟨k, hk⟩ := List.mem_iff_getElem?.mp hpair
  obtain ⟨_, hchunk, hbatch⟩ := h.chunks k pair hk
  rw [hchunk] at hbatch
  exact ((chunk_cells reader result closed hfit k).2 pair.2 hbatch).1

theorem tells_of_completed :
    Tells reader result closed
      (answer (nativeSource reader.toColumnReader result closed) pairs failure)
      (items (nativeSource reader.toColumnReader result closed) pairs failure) := by
  have hcells := cells_of_completed reader result closed hfit h
  have hschemas := schemas_of_completed reader result closed hfit h
  cases pairs with
  | nil =>
    cases failure with
    | some err => exact ⟨itemsMatch_nil _ _, [], some err, hcells, hcells.chunked, rfl, rfl⟩
    | none =>
      have hnil : result.rows = [] := (h.chunked.all rfl).symm
      have hitems : ItemsMatch RecordBatch.schema (declaredSchema reader result.columns)
            (items (nativeSource reader.toColumnReader result closed) [] none) ∧
          (items (nativeSource reader.toColumnReader result closed) [] none).map
            (Except.map batchCells) = items (cellSource reader result closed) [] none := by
        simp only [items, nativeSource, cellSource]
        cases hprep : result.prepared with
        | error err => exact ⟨itemsMatch_nil _ _, rfl⟩
        | ok columns =>
          rw [hfit.prepared hnil columns hprep]
          refine ⟨fun batch hbatch => ?_, rfl⟩
          rw [Except.ok.inj (List.mem_singleton.mp hbatch)]
          rfl
      exact ⟨hitems.1, [], none, hcells, hcells.chunked, rfl, hitems.2⟩
  | cons pair pairs =>
    refine ⟨fun batch hbatch => ?_, _, failure, hcells, hcells.chunked, ?_, ?_⟩
    · rcases List.mem_append.mp hbatch with hbatch | hbatch
      · obtain ⟨found, hfound, heq⟩ := List.mem_map.mp hbatch
        rw [← Except.ok.inj heq]
        exact hschemas found hfound
      · cases failure <;> simp at hbatch
    · exact congrArg Except.ok (hschemas pair (List.mem_cons_self ..))
    · simp only [items, List.map_cons, List.map_append, List.map_map, List.cons_append]
      refine congrArg₂ List.cons rfl (congrArg₂ HAppend.hAppend rfl ?_)
      cases failure <;> rfl

end

theorem declared_stream_tells :
    ∃ header all, Tells reader result closed header all ∧
      ∀ as t, Run Receiving (start (nativeSource reader.toColumnReader result closed)) as t →
        Observes header all as t := by
  obtain ⟨pairs, failure, hcompleted, _, hobserves⟩ :=
    source_delivers (nativeSource reader.toColumnReader result closed)
  exact ⟨_, _, tells_of_completed reader result closed hfit hcompleted, hobserves⟩

end

/-! ### The two servers -/

def mysqlClosed : DbError := .Other "MySQL query stream closed".toList

def postgresClosed : DbError := .Other "Postgres query stream closed".toList

def mysqlSource (result : NativeResult (Option MySql.RowValue)) :
    Source (List (Option MySql.RowValue)) Schema RecordBatch :=
  nativeSource MySql.columnReader.toColumnReader result mysqlClosed

def postgresSource (result : NativeResult (Option Postgres.RowValue)) :
    Source (List (Option Postgres.RowValue)) Schema RecordBatch :=
  nativeSource Postgres.columnReader.toColumnReader result postgresClosed

/- An unsigned number and a NULL in a column that MySQL declares as `BIGINT UNSIGNED`. -/
def unsignedResult : NativeResult (Option MySql.RowValue) where
  columns := [("id".toList, "BIGINT UNSIGNED".toList)]
  rows := [[some ⟨"BIGINT UNSIGNED".toList, .error (.Other []), .error (.Other []), .ok 7,
    .error (.Other []), .error (.Other []), .error (.Other []), .error (.Other []),
    .error (.Other []), .error (.Other []), .error (.Other []), .error (.Other []),
    .error (.Other [])⟩], [none]]
  fetchError := none
  prepared := .ok [("id".toList, "BIGINT UNSIGNED".toList)]

/- A result of PostgreSQL without rows. -/
def emptyResult : NativeResult (Option Postgres.RowValue) where
  columns := [("id".toList, "INT4".toList)]
  rows := []
  fetchError := none
  prepared := .ok [("id".toList, "INT4".toList)]

theorem unsignedResult_fits : RowsFit unsignedResult where
  columns := by simp [unsignedResult]
  width := by simp [unsignedResult]
  prepared := by simp [unsignedResult]

theorem emptyResult_fits : RowsFit emptyResult where
  columns := by simp [emptyResult]
  width := by simp [emptyResult]
  prepared := by simp [emptyResult]

end FsspecDb.Stream
