import FsspecDb.Insert.Stored
import FsspecDb.Sqlite.Cells

/-!
# The batch of stored cells

The batch of a chunk has the cells that the rows were stored for, under the types of the
declared columns: the values never widen a column.
-/

namespace FsspecDb.Sqlite
open Text Checked

/-- The row of a batch under construction. -/
def rowAt (columns : List ColumnValues) (row : Nat) : List CellValue :=
  columns.map fun column => column.finish.cell row

/-- The columns hold these rows, each under its kind. -/
structure Holding (kinds : List ColumnKind) (columns : List ColumnValues)
    (rows : List (List CellValue)) : Prop where
  types : List.Forall₂ (fun kind column => ColumnValues.dataType column = kind.dataType)
    kinds columns
  lengths : ∀ column ∈ columns, column.length = rows.length
  cells : ∀ row < rows.length, rows[row]? = some (rowAt columns row)

/- One row of cells is pushed column by column. -/
theorem pushRow_cells (floats : FloatText) (kinds : List ColumnKind) (columns : List ColumnValues)
    (cells : List CellValue)
    (htypes : List.Forall₂ (fun kind column => ColumnValues.dataType column = kind.dataType)
      kinds columns) (hcells : List.Forall₂ ColumnKind.Admits kinds cells) :
    eachColumn (ColumnValues.push floats) columns (cells.map sqliteCell) =
        .ok (List.zipWith ColumnValues.append columns cells) := by
  induction htypes generalizing cells with
  | nil => rfl
  | cons htype _ ih =>
    cases hcells with
    | cons hcell hcells =>
      rw [List.map_cons, eachColumn, push_cell floats _ _ _ htype hcell, ih _ hcells]
      rfl

/- What the columns hold after the row. -/
theorem zipWith_append (n : Nat) (kinds : List ColumnKind) (columns : List ColumnValues)
    (cells : List CellValue)
    (htypes : List.Forall₂ (fun kind column => ColumnValues.dataType column = kind.dataType)
      kinds columns) (hcells : List.Forall₂ ColumnKind.Admits kinds cells)
    (hlengths : ∀ column ∈ columns, column.length = n) :
    let next := List.zipWith ColumnValues.append columns cells
    List.Forall₂ (fun kind column => ColumnValues.dataType column = kind.dataType) kinds next ∧
      (∀ column ∈ next, column.length = n + 1) ∧
      (∀ row < n, rowAt next row = rowAt columns row) ∧ rowAt next n = cells := by
  induction htypes generalizing cells with
  | nil =>
    cases hcells
    exact ⟨.nil, fun _ h => absurd h List.not_mem_nil, fun _ _ => rfl, rfl⟩
  | @cons kind column kinds columns htype _ ih =>
    cases hcells with
    | @cons _ cell _ cells hcell hcells =>
      rw [List.forall_mem_cons] at hlengths
      obtain ⟨htail, htailLength, hkept, hlast⟩ := ih cells hcells hlengths.2
      have hnext := extends_append kind column cell htype hcell
      refine ⟨.cons (hnext.dataType.trans htype) htail, ?_, fun row hrow => ?_, ?_⟩
      · exact List.forall_mem_cons.mpr ⟨by rw [hnext.length, hlengths.1], htailLength⟩
      · exact congrArg₂ List.cons (hnext.kept row (by rwa [hlengths.1])) (hkept row hrow)
      · have hcell := hnext.last
        rw [hlengths.1] at hcell
        exact congrArg₂ List.cons hcell hlast

theorem Holding.push {kinds : List ColumnKind} {columns : List ColumnValues}
    {rows : List (List CellValue)} (h : Holding kinds columns rows) (cells : List CellValue)
    (hcells : List.Forall₂ ColumnKind.Admits kinds cells) :
    Holding kinds (List.zipWith ColumnValues.append columns cells) (rows ++ [cells]) := by
  obtain ⟨htypes, hlengths, hkept, hlast⟩ :=
    zipWith_append rows.length kinds columns cells h.types hcells h.lengths
  refine ⟨htypes, ?_, fun row hrow => ?_⟩
  · rw [List.length_append]
    exact hlengths
  · rw [List.length_append, List.length_singleton] at hrow
    rcases Nat.lt_or_eq_of_le (Nat.le_of_lt_succ hrow) with hbefore | rfl
    · rw [List.getElem?_append_left hbefore, h.cells row hbefore, hkept row hbefore]
    · rw [List.getElem?_concat_length, hlast]

/-- The rows of a chunk, one after the other. -/
theorem pushRows_cells (floats : FloatText) (kinds : List ColumnKind)
    (columns : List ColumnValues) (before rows : List (List CellValue))
    (h : Holding kinds columns before)
    (hrows : ∀ cells ∈ rows, List.Forall₂ ColumnKind.Admits kinds cells) :
    ∃ next, (rows.map (List.map sqliteCell)).foldlM (eachColumn (ColumnValues.push floats))
        columns = .ok next ∧ Holding kinds next (before ++ rows) := by
  induction rows generalizing columns before with
  | nil => exact ⟨columns, rfl, by rwa [List.append_nil]⟩
  | cons cells rows ih =>
    rw [List.forall_mem_cons] at hrows
    obtain ⟨next, hnext, hholding⟩ := ih _ _ (h.push cells hrows.1) hrows.2
    refine ⟨next, ?_, by rwa [List.append_assoc] at hholding⟩
    rw [List.map_cons, List.foldlM_cons,
      pushRow_cells floats kinds columns cells h.types hrows.1]
    exact hnext

/-! ### The types of a chunk -/

theorem valueRank_le_rank (kind : ColumnKind) (cell : CellValue) (h : kind.Admits cell) :
    valueRank (sqliteCell cell) ≤ kind.rank := by
  cases cell with
  | null => exact Nat.zero_le _
  | bool _ | int _ | float _ | text _ | blob _ =>
    cases kind <;> first | exact h.elim | simp [sqliteCell, valueRank, ColumnKind.rank]

theorem widen_cells (kinds : List ColumnKind) (cells : List CellValue)
    (hcells : List.Forall₂ ColumnKind.Admits kinds cells) :
    widen (kinds.map ColumnKind.rank) (cells.map sqliteCell) = kinds.map ColumnKind.rank := by
  induction hcells with
  | nil => rfl
  | cons hcell _ ih =>
    exact congrArg₂ List.cons (Nat.max_eq_left (valueRank_le_rank _ _ hcell)) ih

theorem foldl_widen_cells (kinds : List ColumnKind) (rows : List (List CellValue))
    (hrows : ∀ cells ∈ rows, List.Forall₂ ColumnKind.Admits kinds cells) :
    (rows.map (List.map sqliteCell)).foldl widen (kinds.map ColumnKind.rank) =
      kinds.map ColumnKind.rank := by
  induction rows with
  | nil => rfl
  | cons cells rows ih =>
    rw [List.forall_mem_cons] at hrows
    rw [List.map_cons, List.foldl_cons, widen_cells kinds cells hrows.1]
    exact ih hrows.2

/- No chunk widens a declared type. -/
theorem columnTypes_cells (columnMetadata : List (Str × Str)) (kinds : List ColumnKind)
    (rows : List (List CellValue))
    (hranks : (columnMetadata.map fun column => rank column.2) = kinds.map ColumnKind.rank)
    (hrows : ∀ cells ∈ rows, List.Forall₂ ColumnKind.Admits kinds cells) :
    columnTypes columnMetadata (rows.map (List.map sqliteCell)) =
      kinds.map ColumnKind.dataType := by
  rw [columnTypes, columnRanks, hranks, foldl_widen_cells kinds rows hrows, List.map_map]
  exact List.map_congr_left fun kind _ => kind.rankType_rank

/- The columns that the type names of a chunk give hold no rows yet. -/
theorem holding_new (kinds : List ColumnKind) (names : List (List Str))
    (h : names.map widest = kinds.map ColumnKind.rank) :
    Holding kinds (names.map ColumnValues.new) [] where
  types := by
    have hwidest : List.Forall₂ Eq (kinds.map ColumnKind.rank) (names.map widest) := by
      rw [List.forall₂_eq_eq_eq]
      exact h.symm
    rw [List.forall₂_map_left_iff, List.forall₂_map_right_iff] at hwidest
    rw [List.forall₂_map_right_iff]
    refine hwidest.imp fun kind names hrank => ?_
    rw [new_dataType, ← hrank, kind.rankType_rank]
  lengths := by
    intro column hcolumn
    obtain ⟨name, _, rfl⟩ := List.mem_map.mp hcolumn
    exact new_length name
  cells row hrow := absurd hrow (Nat.not_lt_zero row)

/-- The batch of a chunk of stored rows has their cells, and the types of the kinds. -/
theorem chunk_read (floats : FloatText) (columnMetadata : List (Str × Str))
    (kinds : List ColumnKind) (rows : List (List CellValue)) (hne : columnMetadata ≠ [])
    (hranks : (columnMetadata.map fun column => rank column.2) = kinds.map ColumnKind.rank)
    (hrows : ∀ cells ∈ rows, List.Forall₂ ColumnKind.Admits kinds cells) :
    ∃ batch, sqliteRowsToBatch floats columnMetadata (rows.map (List.map sqliteCell)) =
        .ok batch ∧
      batch.schema = schemaOf columnMetadata (kinds.map ColumnKind.dataType) ∧
      Insert.batchCells batch = rows := by
  have hcount : columnMetadata.length = kinds.length := by
    simpa using congrArg List.length hranks
  have hwidth : ∀ row ∈ rows.map (List.map sqliteCell), row.length = columnMetadata.length := by
    intro row hrow
    obtain ⟨cells, hcells, rfl⟩ := List.mem_map.mp hrow
    rw [List.length_map, hcount, (hrows cells hcells).length_eq]
  obtain ⟨batch, hbatch, hschema, hnumRows⟩ :=
    sqliteRowsToBatch_ok floats columnMetadata _ hne hwidth
  rw [columnTypes_cells columnMetadata kinds rows hranks hrows] at hschema
  refine ⟨batch, hbatch, hschema, ?_⟩
  -- the columns of the batch are those that the rows were pushed to
  obtain ⟨names, hnames, hwidest⟩ := pushNames_ok (columnMetadata.map fun column => [column.2])
    (rows.map (List.map sqliteCell)) (by simpa only [List.length_map] using hwidth)
  have hstart : (columnMetadata.map fun column => [column.2]).map widest =
      kinds.map ColumnKind.rank := by
    rw [← hranks]
    simp only [List.map_map, Function.comp_def, widest, List.map_cons, List.map_nil,
      List.foldr_cons, List.foldr_nil, Nat.max_zero]
  rw [hstart, foldl_widen_cells kinds rows hrows] at hwidest
  obtain ⟨columns, hcolumns, hholding⟩ := pushRows_cells floats kinds _ [] rows
    (holding_new kinds names hwidest) hrows
  have harrays : batch.columns = columns.map ColumnValues.finish := by
    unfold sqliteRowsToBatch at hbatch
    rw [hnames] at hbatch
    simp only [bind, Except.bind, hcolumns] at hbatch
    exact (RecordBatch.eq_of_tryNew _ _ _ hbatch).2
  rw [Insert.batchCells, harrays, hnumRows, List.length_map]
  refine List.ext_getElem? fun row => ?_
  rw [List.getElem?_map]
  by_cases hrow : row < rows.length
  · have hcells := hholding.cells row hrow
    rw [List.nil_append] at hcells
    rw [hcells, List.getElem?_range hrow, Option.map_some, List.map_map]
    rfl
  · rw [List.getElem?_eq_none (by simpa using hrow), List.getElem?_eq_none (by simpa using hrow)]
    rfl

end FsspecDb.Sqlite
