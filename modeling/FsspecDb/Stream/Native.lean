import FsspecDb.Arrow
import FsspecDb.Lib.Checked
import FsspecDb.Stream.Receive

/-!
# The three native backends (sqlite.rs, postgres.rs, mysql.rs)

`sqlite_rows_to_batch`, `postgres_rows_to_batch` and `mysql_rows_to_batch` have one body over
their own `ColumnValues`. With it the worker's batches have the rows of their chunks.
-/

namespace FsspecDb.Stream
open Transition

/-- `ColumnValues` of a backend: the type names it collects from the values that are not null,
the column it chooses by them, and one value pushed for every row. -/
structure ColumnReader (Raw Column : Type) where
  typeName : Raw → Option Str
  new : List Str → Column
  push : Column → Raw → Except DbError Column
  dataType : Column → DataType
  finish : Column → ArrowArray
  new_length : ∀ names, (finish (new names)).length = 0
  push_length : ∀ column raw column', push column raw = .ok column' →
    (finish column').length = (finish column).length + 1

variable {Raw Column : Type}

def indexOutOfBounds : DbError := .Other "column index out of bounds".toList

/- `for (index, x) in columns.iter_mut().enumerate()` over the values of a row. -/
def eachValue {α : Type} (f : α → Raw → Except DbError α) :
    List α → List Raw → Except DbError (List α)
  | [], _ => .ok []
  | _ :: _, [] => .error indexOutOfBounds
  | x :: xs, raw :: row => do
    let y ← f x raw
    let ys ← eachValue f xs row
    pure (y :: ys)

/-- The body of the three `*_rows_to_batch`. -/
def rowsToBatch (reader : ColumnReader Raw Column) (columnMetadata : List (Str × Str))
    (rows : List (List Raw)) : Except DbError RecordBatch := do
  let typeNames ← rows.foldlM
    (eachValue fun names raw => pure (names ++ (reader.typeName raw).toList))
    (columnMetadata.map fun column => [column.2])
  let columns ← rows.foldlM (eachValue reader.push) (typeNames.map reader.new)
  let fields := List.zipWith (fun column values => Field.mk column.1 (reader.dataType values) true)
    columnMetadata columns
  RecordBatch.tryNew fields (columns.map reader.finish)

/-- What a query of a backend comes to: the columns of its rows, the rows before the end or an
error, and what preparing the statement tells of its columns. -/
structure NativeResult (Raw : Type) where
  columns : List (Str × Str)
  rows : List (List Raw)
  fetchError : Option DbError
  prepared : Except DbError (List (Str × Str))

/-- The worker's source; `closed` is the backend's message for a closed channel. -/
def nativeSource (reader : ColumnReader Raw Column) (result : NativeResult Raw) (closed : DbError) :
    Source (List Raw) Schema RecordBatch where
  rows := result.rows
  fetchError := result.fetchError
  toBatch := rowsToBatch reader result.columns
  schema := RecordBatch.schema
  querySchema := result.prepared.map fun columns => columns.map fun column =>
    ⟨column.1, reader.dataType (reader.new [column.2]), true⟩
  newEmpty := RecordBatch.newEmpty
  closed := closed

/-! ### The rows of a batch -/

theorem eachValue_length (reader : ColumnReader Raw Column) (columns : List Column)
    (row : List Raw) (next : List Column) (n : Nat)
    (h : eachValue reader.push columns row = .ok next)
    (hlen : ∀ column ∈ columns, (reader.finish column).length = n) :
    ∀ column ∈ next, (reader.finish column).length = n + 1 := by
  induction columns generalizing row next with
  | nil =>
    rw [← Except.ok.inj h]
    exact fun _ hmem => absurd hmem List.not_mem_nil
  | cons column columns ih =>
    cases row with
    | nil => cases h
    | cons raw row =>
      obtain ⟨first, hfirst, h⟩ := Checked.bind_eq_ok_iff.mp h
      obtain ⟨rest, hrest, h⟩ := Checked.bind_eq_ok_iff.mp h
      rw [← Except.ok.inj h]
      rw [List.forall_mem_cons] at hlen ⊢
      exact ⟨by rw [reader.push_length column raw first hfirst, hlen.1], ih row rest hrest hlen.2⟩

theorem foldlM_length (reader : ColumnReader Raw Column) (rows : List (List Raw))
    (columns final : List Column) (n : Nat)
    (h : rows.foldlM (eachValue reader.push) columns = .ok final)
    (hlen : ∀ column ∈ columns, (reader.finish column).length = n) :
    ∀ column ∈ final, (reader.finish column).length = n + rows.length := by
  induction rows generalizing columns n with
  | nil =>
    rw [← Except.ok.inj h]
    exact hlen
  | cons row rows ih =>
    rw [List.foldlM_cons] at h
    obtain ⟨next, hnext, h⟩ := Checked.bind_eq_ok_iff.mp h
    have hrest := ih next (n + 1) h (eachValue_length reader columns row next n hnext hlen)
    intro column hcolumn
    rw [hrest column hcolumn, List.length_cons]
    omega

/-- A batch has as many rows as were converted. -/
theorem rowsToBatch_numRows (reader : ColumnReader Raw Column) (columnMetadata : List (Str × Str))
    (rows : List (List Raw)) (batch : RecordBatch)
    (h : rowsToBatch reader columnMetadata rows = .ok batch) : batch.numRows = rows.length := by
  obtain ⟨typeNames, _, h⟩ := Checked.bind_eq_ok_iff.mp h
  obtain ⟨columns, hcolumns, h⟩ := Checked.bind_eq_ok_iff.mp h
  have hlen := foldlM_length reader rows _ columns 0 hcolumns (by
    intro column hcolumn
    obtain ⟨names, _, rfl⟩ := List.mem_map.mp hcolumn
    exact reader.new_length names)
  cases columns with
  | nil => cases h
  | cons column columns =>
    rw [RecordBatch.numRows_of_tryNew _ _ _ batch h, hlen column (by simp), Nat.zero_add]

/-- What the caller of a native query observes, in every run of the worker and a caller that
keeps receiving: the answer and the items of the completed chunks and the failure. Each batch has
the rows of its chunk. A run that has not come to the end of the reader can go on, unless `query`
has failed, and is bounded. -/
theorem native_stream_delivers (reader : ColumnReader Raw Column) (result : NativeResult Raw)
    (closed : DbError) :
    ∃ pairs failure,
      Completed (nativeSource reader result closed) result.rows pairs failure ∧
      Chunked result.rows (pairs.map Prod.fst) failure ∧
      (∀ pair ∈ pairs, pair.2.numRows = pair.1.length) ∧
      (∃ bound, ∀ as t, Run Receiving (start (nativeSource reader result closed)) as t →
        .recvEnd ∉ as → as.length ≤ bound) ∧
      ∀ as t, Run Receiving (start (nativeSource reader result closed)) as t →
        Observes (answer (nativeSource reader result closed) pairs failure)
          (items (nativeSource reader result closed) pairs failure) as t := by
  obtain ⟨pairs, failure, hcompleted, hbound, hobserves⟩ :=
    source_delivers (nativeSource reader result closed)
  exact ⟨pairs, failure, hcompleted, hcompleted.chunked, fun pair hpair =>
    rowsToBatch_numRows reader result.columns pair.1 pair.2 (hcompleted.converts pair hpair),
    hbound, hobserves⟩

end FsspecDb.Stream
