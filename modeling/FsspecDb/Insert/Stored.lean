import FsspecDb.Insert.Native

/-!
# Rows of a batch in a table

What it means that a row of a batch is stored, and that the server's `insertRows` does
so: an argument reaches the column that its name names.
-/

namespace FsspecDb.Insert
open Text Checked

variable {V Arg : Type}

/-! ### What is to be stored -/

/-- The rows of a batch: each cell with the name of its field. -/
def batchRows (batch : RecordBatch) : List (List (Str × CellValue)) :=
  (List.range batch.numRows).map fun row =>
    (batchColumns batch).zip (batch.columns.map fun column => column.cell row)

/-- A row of the table is a row of a batch: there is a column for each cell, the column
holds what the server stores for that cell, and the other columns have their default.
`denotes` says which arguments stand for a cell. -/
structure StoredRow (engine : Engine V Arg) (denotes : Arg → CellValue → Prop)
    (columns : List Str) (fields : List (Str × CellValue)) (row : List V) : Prop where
  placed : ∀ field ∈ fields, ∃ column ∈ columns,
    engine.rules.fold field.1 = engine.rules.fold column
  stored : List.Forall₂ (fun column value => ∀ field ∈ fields,
    engine.rules.fold field.1 = engine.rules.fold column →
      ∃ arg, denotes arg field.2 ∧ engine.coerce column arg = some value) columns row
  others : List.Forall₂ (fun column value =>
    (∀ field ∈ fields, engine.rules.fold field.1 ≠ engine.rules.fold column) →
      ∃ rows, engine.default rows column = some value) columns row

/-! ### The cells of a batch -/

theorem batchRows_length (batch : RecordBatch) : (batchRows batch).length = batch.numRows := by
  simp [batchRows]

def batchCells (batch : RecordBatch) : List (List CellValue) :=
  (List.range batch.numRows).map fun row => batch.columns.map fun column => column.cell row

theorem batchCells_zip (batch : RecordBatch) :
    (batchCells batch).map (batchColumns batch).zip = batchRows batch := List.map_map ..

theorem batchColumns_length (batch : RecordBatch) :
    (batchColumns batch).length = batch.columns.length := by
  have htypes := congrArg List.length batch.wellFormed.types
  rw [List.length_map, List.length_map] at htypes
  rw [batchColumns, List.length_map, htypes]

theorem batchCells_length (batch : RecordBatch) (row : List CellValue)
    (h : row ∈ batchCells batch) : (batchColumns batch).length = row.length := by
  obtain ⟨i, _, rfl⟩ := List.mem_map.mp h
  rw [List.length_map, batchColumns_length]

/-- Values that were read off the columns, row by row, stand for the cells. -/
theorem batchCells_denotes {α : Type} {denotes : α → CellValue → Prop}
    (read : ArrowArray → Nat → α → Prop)
    (hread : ∀ array row value, read array row value → denotes value (array.cell row))
    (batch : RecordBatch) (values : List (List α))
    (h : List.Forall₂ (fun row value => List.Forall₂ (fun column => read column row)
      batch.columns value) (List.range batch.numRows) values) :
    List.Forall₂ (List.Forall₂ denotes) values (batchCells batch) := by
  rw [batchCells, List.forall₂_map_right_iff]
  refine h.flip.imp fun value row hrow => ?_
  rw [List.forall₂_map_right_iff]
  exact hrow.flip.imp fun value column => hread column row value

theorem length_of_denotes {α : Type} {denotes : α → CellValue → Prop} {n : Nat}
    {values : List (List α)} {cells : List (List CellValue)}
    (h : List.Forall₂ (List.Forall₂ denotes) values cells)
    (hcells : ∀ row ∈ cells, n = row.length) :
    ∀ value ∈ values, value.length = n := by
  induction h with
  | nil => simp
  | cons hhead _ ih =>
    rw [List.forall_mem_cons] at hcells ⊢
    exact ⟨hhead.length_eq.trans hcells.1.symm, ih hcells.2⟩

/-! ### Storing rows -/

section
variable {engine : Engine V Arg} {denotes : Arg → CellValue → Prop} {columns names : List Str}

/-- With the names distinct, the argument that is found for a column is the one at the
position of its name. -/
theorem find_zip {args : List Arg} {cells : List CellValue} {column : Str}
    (hargs : List.Forall₂ denotes args cells) (hlength : names.length = cells.length)
    (hnodup : (names.map engine.rules.fold).Nodup) (field : Str × CellValue)
    (hfield : field ∈ names.zip cells)
    (hfold : engine.rules.fold field.1 = engine.rules.fold column) :
    ∃ found, (names.zip args).find? (fun p => engine.rules.fold p.1 = engine.rules.fold column) =
      some found ∧ denotes found.2 field.2 := by
  induction hargs generalizing names with
  | nil => simp at hfield
  | @cons arg cell args cells hhead htail ih =>
    cases names with
    | nil => simp at hlength
    | cons name names =>
      rw [List.map_cons, List.nodup_cons] at hnodup
      rw [List.zip_cons_cons, List.mem_cons] at hfield
      rw [List.zip_cons_cons, List.find?_cons]
      rcases hfield with rfl | hfield
      · exact ⟨(name, arg), by simp [hfold], hhead⟩
      · have hne : engine.rules.fold name ≠ engine.rules.fold column := by
          rw [← hfold]
          intro heq
          exact hnodup.1 (heq ▸ List.mem_map_of_mem (List.of_mem_zip hfield).1)
        simp only [hne, decide_false]
        exact ih (Nat.succ.inj hlength) hnodup.2 hfield

theorem find_zip_none {args : List Arg} {cells : List CellValue} {column : Str}
    (hlength : args.length = cells.length)
    (h : ∀ field ∈ names.zip cells, engine.rules.fold field.1 ≠ engine.rules.fold column) :
    (names.zip args).find? (fun p => engine.rules.fold p.1 = engine.rules.fold column) = none := by
  induction names generalizing args cells with
  | nil => rfl
  | cons name names ih =>
    cases args with
    | nil => rfl
    | cons arg args =>
      cases cells with
      | nil => simp at hlength
      | cons cell cells =>
        rw [List.zip_cons_cons, List.forall_mem_cons] at h
        rw [List.zip_cons_cons, List.find?_cons_of_neg (by simpa using h.1)]
        exact ih (Nat.succ.inj hlength) h.2

theorem storeRow_stored {rows : List (List V)} {args : List Arg} {cells : List CellValue}
    {row : List V} (hargs : List.Forall₂ denotes args cells)
    (hlength : names.length = cells.length) (hnodup : (names.map engine.rules.fold).Nodup)
    (hplaced : ∀ name ∈ names, ∃ column ∈ columns,
      engine.rules.fold name = engine.rules.fold column)
    (h : engine.storeRow columns rows names args = some row) :
    StoredRow engine denotes columns (names.zip cells) row := by
  have hcolumns := mapM_eq_some_iff.mp h
  refine ⟨fun field hfield => hplaced _ (List.of_mem_zip hfield).1, ?_, ?_⟩
  · refine hcolumns.imp fun column value hvalue field hfield hfold => ?_
    obtain ⟨found, hfound, hdenotes⟩ := find_zip hargs hlength hnodup field hfield hfold
    rw [hfound] at hvalue
    exact ⟨found.2, hdenotes, hvalue⟩
  · refine hcolumns.imp fun column value hvalue hnone => ?_
    rw [find_zip_none hargs.length_eq hnone] at hvalue
    exact ⟨rows, hvalue⟩

theorem storeRows_stored {rows after : List (List V)} {values : List (List Arg)}
    {cells : List (List CellValue)} (hvalues : List.Forall₂ (List.Forall₂ denotes) values cells)
    (hlength : ∀ row ∈ cells, names.length = row.length)
    (hnodup : (names.map engine.rules.fold).Nodup)
    (hplaced : ∀ name ∈ names, ∃ column ∈ columns,
      engine.rules.fold name = engine.rules.fold column)
    (h : engine.storeRows columns names rows values = some after) :
    ∃ new, after = rows ++ new ∧
      List.Forall₂ (StoredRow engine denotes columns) (cells.map names.zip) new := by
  induction hvalues generalizing rows with
  | nil => exact ⟨[], by rw [List.append_nil]; exact (Option.some.inj h).symm, .nil⟩
  | cons hargs _ ih =>
    rw [List.forall_mem_cons] at hlength
    obtain ⟨row, hrow, h⟩ := Option.bind_eq_some_iff.mp h
    obtain ⟨new, rfl, hnew⟩ := ih hlength.2 h
    exact ⟨row :: new, by simp, .cons (storeRow_stored hargs hlength.1 hnodup hplaced hrow) hnew⟩

theorem insertRows_stored {table after : Table V} {values : List (List Arg)}
    {cells : List (List CellValue)} (hvalues : List.Forall₂ (List.Forall₂ denotes) values cells)
    (hlength : ∀ row ∈ cells, names.length = row.length)
    (hnodup : engine.rules.listsTwice = true → (names.map engine.rules.fold).Nodup)
    (h : engine.insertRows table names values = some after) :
    ∃ new, after = { table with rows := table.rows ++ new } ∧
      List.Forall₂ (StoredRow engine denotes table.columns) (cells.map names.zip) new := by
  unfold Engine.insertRows at h
  split at h
  · simp at h
  next hunknown =>
  split at h
  · simp at h
  next htwice =>
  split at h
  · simp at h
  have hdistinct : (names.map engine.rules.fold).Nodup := by
    cases hlists : engine.rules.listsTwice with
    | true => exact hnodup hlists
    | false => exact Decidable.of_not_not fun hdup => htwice ⟨hlists, hdup⟩
  have hplaced : ∀ name ∈ names, ∃ column ∈ table.columns,
      engine.rules.fold name = engine.rules.fold column := by
    intro name hname
    by_contra hnone
    push Not at hnone
    exact hunknown ⟨name, hname, fun column hcolumn heq => hnone column hcolumn heq.symm⟩
  obtain ⟨rows, hrows, rfl⟩ := Option.map_eq_some_iff.mp h
  obtain ⟨new, rfl, hnew⟩ := storeRows_stored hvalues hlength hdistinct hplaced hrows
  exact ⟨new, rfl, hnew⟩

end

end FsspecDb.Insert
