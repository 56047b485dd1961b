import FsspecDb.Insert.Stored
import FsspecDb.Stream.Native

/-!
# Columns typed by the statement (postgres.rs, mysql.rs)

`ColumnValues::new` of the two servers looks at the first of the type names alone, which is the
declared one. So every chunk of a result has the schema that preparing the statement tells, and
a value is converted by the type of its column, whatever the other rows hold.
-/

namespace FsspecDb.Stream
open Transition Checked FsspecDb.Insert

/-- A column after a push: of the same kind, with one more slot, which says `value`. -/
structure Grew {Raw Column : Type} (dataType : Column → DataType)
    (cell : Column → Raw → Except DbError CellValue) (finish : Column → ArrowArray)
    (column next : Column) (value : CellValue) : Prop where
  dataType : dataType next = dataType column
  cell : cell next = cell column
  length : (finish next).length = (finish column).length + 1
  cells : ∀ row, (finish next).cell row =
    if row = (finish column).length then value else (finish column).cell row

/-- A `ColumnValues` that is chosen by the first of the type names; `cell` is what a value of the
column becomes. -/
structure DeclaredReader (Raw Column : Type) extends ColumnReader Raw Column where
  cell : Column → Raw → Except DbError CellValue
  new_first : ∀ name names, new (name :: names) = new [name]
  push_ok : ∀ column raw next, push column raw = .ok next →
    ∃ value, cell column raw = .ok value ∧ Grew dataType cell finish column next value
  push_error : ∀ column raw err, push column raw = .error err ↔ cell column raw = .error err
  finish_dataType : ∀ column, (finish column).dataType = dataType column

/- The array of a column whose values got one more slot. -/
theorem slotValue_grow {α : Type} (values : List (Option α)) (slot : Option α)
    (value : α → CellValue) (row : Nat) :
    slotValue (values ++ [slot]) row value =
      if row = values.length then slot.elim .null value else slotValue values row value := by
  by_cases hlt : row < values.length
  · rw [if_neg (by omega), slotValue, slotValue, List.getElem?_append_left hlt]
  · by_cases hrow : row = values.length
    · rw [if_pos hrow, hrow, slotValue, List.getElem?_concat_length]
      cases slot <;> rfl
    · have hbefore : values[row]? = none := List.getElem?_eq_none (by omega)
      have hafter : (values ++ [slot])[row]? = none :=
        List.getElem?_eq_none (by rw [List.length_append, List.length_singleton]; omega)
      rw [if_neg hrow, slotValue, slotValue, hbefore, hafter]

variable {Raw Column : Type}

/-- `mysql_schema` and `postgres_schema`. -/
def declaredSchema (reader : DeclaredReader Raw Column) (columnMetadata : List (Str × Str)) :
    Schema :=
  columnMetadata.map fun column => ⟨column.1, reader.dataType (reader.new [column.2]), true⟩

/- The values of a row under the conversion of each column; the first failure is the error. -/
def cellsOf : List (Raw → Except DbError CellValue) → List Raw →
    Except DbError (List CellValue)
  | [], _ => .ok []
  | _ :: _, [] => .error indexOutOfBounds
  | convert :: rest, raw :: row => do
    let value ← convert raw
    let values ← cellsOf rest row
    pure (value :: values)

/-- What a row of the result says, by the declared types. -/
def rowCells (reader : DeclaredReader Raw Column) (columnMetadata : List (Str × Str))
    (row : List Raw) : Except DbError (List CellValue) :=
  cellsOf (columnMetadata.map fun column => reader.cell (reader.new [column.2])) row

/-! ### The type names of a chunk begin with the declared ones -/

theorem eachValue_names (reader : DeclaredReader Raw Column) (columnMetadata : List (Str × Str))
    (typeNames : List (List Str)) (row : List Raw) (hlength : row.length = columnMetadata.length)
    (h : List.Forall₂ (fun column names => ∃ rest, names = column.2 :: rest) columnMetadata
      typeNames) :
    ∃ next, eachValue (fun names raw => pure (names ++ (reader.typeName raw).toList)) typeNames
        row = .ok next ∧
      List.Forall₂ (fun column names => ∃ rest, names = column.2 :: rest) columnMetadata next := by
  induction h generalizing row with
  | nil => exact ⟨[], by cases row <;> rfl, .nil⟩
  | @cons column names columnMetadata typeNames hhead _ ih =>
    cases row with
    | nil => simp at hlength
    | cons raw row =>
      obtain ⟨next, hnext, hall⟩ := ih row (Nat.succ.inj hlength)
      obtain ⟨rest, rfl⟩ := hhead
      refine ⟨(column.2 :: rest ++ (reader.typeName raw).toList) :: next, ?_, .cons ⟨_, rfl⟩ hall⟩
      rw [eachValue, hnext]
      rfl

theorem foldlM_names (reader : DeclaredReader Raw Column) (columnMetadata : List (Str × Str))
    (rows : List (List Raw)) (typeNames : List (List Str))
    (hwidth : ∀ row ∈ rows, row.length = columnMetadata.length)
    (h : List.Forall₂ (fun column names => ∃ rest, names = column.2 :: rest) columnMetadata
      typeNames) :
    ∃ final, rows.foldlM
        (eachValue fun names raw => pure (names ++ (reader.typeName raw).toList)) typeNames =
        .ok final ∧
      final.map reader.new = columnMetadata.map fun column => reader.new [column.2] := by
  induction rows generalizing typeNames with
  | nil =>
    refine ⟨typeNames, rfl, ?_⟩
    induction h with
    | nil => rfl
    | cons hhead _ ih =>
      obtain ⟨rest, rfl⟩ := hhead
      rw [List.map_cons, List.map_cons, reader.new_first, ih (by simp)]
  | cons row rows ih =>
    rw [List.forall_mem_cons] at hwidth
    obtain ⟨next, hnext, hall⟩ := eachValue_names reader columnMetadata typeNames row hwidth.1 h
    rw [List.foldlM_cons, hnext]
    exact ih next hwidth.2 hall

/-! ### Columns that hold cells -/

/-- The columns grew from `kinds` by the rows of `cells`. -/
structure Holds (reader : DeclaredReader Raw Column) (kinds columns : List Column)
    (cells : List (List CellValue)) : Prop where
  types : columns.map reader.dataType = kinds.map reader.dataType
  converts : columns.map reader.cell = kinds.map reader.cell
  lengths : ∀ column ∈ columns, (reader.finish column).length = cells.length
  rows : ∀ row values, cells[row]? = some values →
    columns.map (fun column => (reader.finish column).cell row) = values

theorem eachValue_error (reader : DeclaredReader Raw Column) (columns : List Column)
    (row : List Raw) (err : DbError) :
    eachValue reader.push columns row = .error err ↔
      cellsOf (columns.map reader.cell) row = .error err := by
  induction columns generalizing row err with
  | nil => simp [eachValue, cellsOf]
  | cons column columns ih =>
    cases row with
    | nil => simp [eachValue, cellsOf]
    | cons raw row =>
      have hvalue := exists_ok_iff_of_error (reader.push_error column raw)
      rw [eachValue, List.map_cons, cellsOf, bind_eq_error_iff, bind_eq_error_iff,
        reader.push_error]
      simp only [bind_eq_error_iff, ih row, pure, Except.pure, reduceCtorEq, and_false,
        exists_false, or_false, exists_and_right, hvalue]

theorem eachValue_ok (reader : DeclaredReader Raw Column) (columns next : List Column)
    (row : List Raw) (n : Nat) (h : eachValue reader.push columns row = .ok next)
    (hlen : ∀ column ∈ columns, (reader.finish column).length = n) :
    next.map reader.dataType = columns.map reader.dataType ∧
      next.map reader.cell = columns.map reader.cell ∧
      ∃ values, cellsOf (columns.map reader.cell) row = .ok values ∧
        ∀ i, next.map (fun column => (reader.finish column).cell i) =
          if i = n then values else columns.map (fun column => (reader.finish column).cell i) := by
  induction columns generalizing row next with
  | nil =>
    rw [← Except.ok.inj h]
    exact ⟨rfl, rfl, [], rfl, by simp⟩
  | cons column columns ih =>
    cases row with
    | nil => cases h
    | cons raw row =>
      obtain ⟨first, hfirst, h⟩ := bind_eq_ok_iff.mp h
      obtain ⟨rest, hrest, h⟩ := bind_eq_ok_iff.mp h
      rw [← Except.ok.inj h]
      rw [List.forall_mem_cons] at hlen
      obtain ⟨value, hvalue, hgrew⟩ := reader.push_ok column raw first hfirst
      obtain ⟨htypes, hconverts, values, hvalues, hrows⟩ := ih rest row hrest hlen.2
      refine ⟨by rw [List.map_cons, List.map_cons, hgrew.dataType, htypes],
        by rw [List.map_cons, List.map_cons, hgrew.cell, hconverts], value :: values, ?_, ?_⟩
      · rw [List.map_cons, cellsOf, hvalue, hvalues]
        rfl
      · intro i
        rw [List.map_cons, List.map_cons, hrows, hgrew.cells, hlen.1]
        split_ifs <;> rfl

theorem Holds.push {reader : DeclaredReader Raw Column} {kinds columns next : List Column}
    {cells : List (List CellValue)} {row : List Raw} (h : Holds reader kinds columns cells)
    (hpush : eachValue reader.push columns row = .ok next) :
    ∃ values, cellsOf (kinds.map reader.cell) row = .ok values ∧
      Holds reader kinds next (cells ++ [values]) := by
  obtain ⟨htypes, hconverts, values, hvalues, hrows⟩ :=
    eachValue_ok reader columns next row cells.length hpush h.lengths
  have hgrown := eachValue_length reader.toColumnReader columns row next cells.length hpush
    h.lengths
  refine ⟨values, h.converts ▸ hvalues, htypes.trans h.types, hconverts.trans h.converts,
    fun column hcolumn => ?_, fun i found hfound => ?_⟩
  · rw [hgrown column hcolumn, List.length_append, List.length_singleton]
  · rw [hrows i]
    by_cases hi : i = cells.length
    · rw [if_pos hi]
      rw [hi, List.getElem?_append_right (Nat.le_refl _), Nat.sub_self] at hfound
      exact Option.some.inj hfound
    · rw [if_neg hi]
      have hlt : i < cells.length := by
        have hbound := (List.getElem?_eq_some_iff.mp hfound).1
        rw [List.length_append, List.length_singleton] at hbound
        omega
      rw [List.getElem?_append_left hlt] at hfound
      exact h.rows i found hfound

/-- All the rows: converted in order, or the first failure of a row. -/
theorem foldlM_push (reader : DeclaredReader Raw Column) (kinds columns : List Column)
    (cells : List (List CellValue)) (rows : List (List Raw))
    (h : Holds reader kinds columns cells) :
    (∀ err, rows.foldlM (eachValue reader.push) columns = .error err ↔
      rows.mapM (cellsOf (kinds.map reader.cell)) = .error err) ∧
    ∀ final, rows.foldlM (eachValue reader.push) columns = .ok final →
      ∃ more, rows.mapM (cellsOf (kinds.map reader.cell)) = .ok more ∧
        Holds reader kinds final (cells ++ more) := by
  induction rows generalizing columns cells with
  | nil =>
    refine ⟨fun err => by simp [pure, Except.pure], fun final hfinal => ⟨[], rfl, ?_⟩⟩
    rw [← Except.ok.inj hfinal, List.append_nil]
    exact h
  | cons row rows ih =>
    rw [List.foldlM_cons, List.mapM_cons]
    cases hnext : eachValue reader.push columns row with
    | error first =>
      have hcells := (eachValue_error reader columns row first).mp hnext
      rw [h.converts] at hcells
      rw [hcells]
      exact ⟨fun err => by simp [bind, Except.bind], fun final hfinal => by cases hfinal⟩
    | ok next =>
      obtain ⟨values, hvalues, hholds⟩ := h.push hnext
      obtain ⟨herror, hok⟩ := ih next (cells ++ [values]) hholds
      rw [hvalues]
      refine ⟨fun err => ?_, fun final hfinal => ?_⟩
      · rw [bind_eq_error_iff, bind_eq_error_iff]
        simp only [reduceCtorEq, false_or, Except.ok.injEq, exists_eq_left', herror,
          bind_eq_error_iff, pure, Except.pure, and_false, exists_false, or_false]
      · obtain ⟨more, hmore, hfinal⟩ := hok final hfinal
        refine ⟨values :: more, ?_, by rwa [List.append_assoc] at hfinal⟩
        rw [hmore]
        rfl

/-! ### The batch of a chunk -/

theorem zipWith_fields (reader : DeclaredReader Raw Column) (columnMetadata : List (Str × Str))
    (columns : List Column)
    (h : columns.map reader.dataType =
      columnMetadata.map fun column => reader.dataType (reader.new [column.2])) :
    List.zipWith (fun column values => Field.mk column.1 (reader.dataType values) true)
      columnMetadata columns = declaredSchema reader columnMetadata := by
  induction columnMetadata generalizing columns with
  | nil => rfl
  | cons column columnMetadata ih =>
    cases columns with
    | nil => simp at h
    | cons values columns =>
      rw [List.map_cons, List.map_cons, List.cons.injEq] at h
      rw [List.zipWith_cons_cons, ih columns h.2, h.1]
      rfl

theorem tryNew_holds (reader : DeclaredReader Raw Column) (columnMetadata : List (Str × Str))
    (columns : List Column) (cells : List (List CellValue)) (hne : columnMetadata ≠ [])
    (h : Holds reader (columnMetadata.map fun column => reader.new [column.2]) columns cells) :
    ∃ batch, RecordBatch.tryNew (declaredSchema reader columnMetadata)
        (columns.map reader.finish) = .ok batch ∧
      batch.schema = declaredSchema reader columnMetadata ∧ batchCells batch = cells := by
  have htypes := h.types
  rw [List.map_map] at htypes
  have hcolumns : columns ≠ [] := by
    intro hnil
    subst hnil
    have hlength := congrArg List.length htypes
    rw [List.length_map, List.length_map] at hlength
    exact hne (List.length_eq_zero_iff.mp hlength.symm)
  obtain ⟨batch, hbatch, hschema, hfinished, hrows⟩ := RecordBatch.tryNew_ok
    (declaredSchema reader columnMetadata) (columns.map reader.finish) cells.length
    (by rwa [ne_eq, List.map_eq_nil_iff]) (by
      refine ⟨?_, fun array harray => ?_, fun p hp hnull => ?_⟩
      · rw [List.map_map, declaredSchema, List.map_map]
        simpa only [Function.comp_def, reader.finish_dataType] using htypes
      · obtain ⟨column, hcolumn, rfl⟩ := List.mem_map.mp harray
        exact h.lengths column hcolumn
      · obtain ⟨column, _, hfield⟩ := List.mem_map.mp (List.of_mem_zip hp).1
        rw [← hfield] at hnull
        cases hnull)
  refine ⟨batch, hbatch, hschema, ?_⟩
  rw [batchCells, hfinished, hrows]
  apply List.ext_getElem?
  intro i
  rw [List.getElem?_map]
  by_cases hi : i < cells.length
  · rw [List.getElem?_range hi, Option.map_some, List.map_map]
    rw [List.getElem?_eq_getElem hi]
    exact congrArg some (h.rows i _ (List.getElem?_eq_getElem hi))
  · rw [List.getElem?_eq_none (by simpa using hi), List.getElem?_eq_none (by omega)]
    rfl

/-- A chunk fails with the first value that does not convert; else its batch has the declared
schema and the cells of its rows. -/
theorem rowsToBatch_cells (reader : DeclaredReader Raw Column)
    (columnMetadata : List (Str × Str)) (rows : List (List Raw)) (hne : columnMetadata ≠ [])
    (hwidth : ∀ row ∈ rows, row.length = columnMetadata.length) :
    (∀ err, rowsToBatch reader.toColumnReader columnMetadata rows = .error err ↔
      rows.mapM (rowCells reader columnMetadata) = .error err) ∧
    ∀ batch, rowsToBatch reader.toColumnReader columnMetadata rows = .ok batch →
      batch.schema = declaredSchema reader columnMetadata ∧
        rows.mapM (rowCells reader columnMetadata) = .ok (batchCells batch) := by
  obtain ⟨typeNames, htypeNames, hkinds⟩ := foldlM_names reader columnMetadata rows
    (columnMetadata.map fun column => [column.2]) hwidth (by
      rw [List.forall₂_map_right_iff]
      exact List.forall₂_same.mpr fun column _ => ⟨[], rfl⟩)
  have hstart : Holds reader (columnMetadata.map fun column => reader.new [column.2])
      (columnMetadata.map fun column => reader.new [column.2]) [] := by
    refine ⟨rfl, rfl, fun column hcolumn => ?_, fun row values hvalues => by simp at hvalues⟩
    obtain ⟨declared, _, rfl⟩ := List.mem_map.mp hcolumn
    exact reader.new_length _
  obtain ⟨herror, hok⟩ := foldlM_push reader _ _ [] rows hstart
  have hcells : rowCells reader columnMetadata =
      cellsOf ((columnMetadata.map fun column => reader.new [column.2]).map reader.cell) := by
    funext row
    rw [rowCells, List.map_map]
    rfl
  rw [rowsToBatch, htypeNames, hcells]
  have hbind (rest : List (List Str) → Except DbError RecordBatch) :
      (Except.ok typeNames >>= rest) = rest typeNames := rfl
  rw [hbind, hkinds]
  cases hfinal : rows.foldlM (eachValue reader.push)
      (columnMetadata.map fun column => reader.new [column.2]) with
  | error first =>
    refine ⟨fun err => ?_, fun batch hbatch => by cases hbatch⟩
    rw [← herror, hfinal]
    simp [bind, Except.bind]
  | ok final =>
    obtain ⟨cells, hcells, hholds⟩ := hok final hfinal
    rw [List.nil_append] at hholds
    have htypes := hholds.types
    rw [List.map_map] at htypes
    obtain ⟨batch, hbatch, hschema, hbatchCells⟩ :=
      tryNew_holds reader columnMetadata final cells hne hholds
    have hresult : ((Except.ok final : Except DbError (List Column)) >>= fun columns =>
        RecordBatch.tryNew (List.zipWith
          (fun column values => Field.mk column.1 (reader.dataType values) true)
          columnMetadata columns) (columns.map reader.finish)) = .ok batch := by
      rw [← hbatch, ← zipWith_fields reader columnMetadata final htypes]
      rfl
    rw [hcells]
    refine ⟨fun err => ?_, fun found hfound => ?_⟩
    · rw [hresult]
      simp
    · rw [hresult] at hfound
      rw [← Except.ok.inj hfound, hbatchCells]
      exact ⟨hschema, rfl⟩

end FsspecDb.Stream
