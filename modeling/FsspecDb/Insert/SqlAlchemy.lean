import FsspecDb.Insert.Reordered

/-!
# `SQLAlchemyDatabase.insert` (sqlalchemy.py)

One transaction empties the table in truncate mode and inserts the rows as dictionaries.
-/

namespace FsspecDb.SqlAlchemy
open Text Fs FsspecDb.Insert

variable {V : Type}

/-- A row of `to_pylist`. The values are those of the Arrow columns, with their types. -/
abbrev Dict := List (Str × DataType × CellValue)

/- A key that was set twice has the last value. -/
def Dict.get (row : Dict) (key : Str) : Option (DataType × CellValue) :=
  (row.reverse.find? fun p => p.1 = key).map Prod.snd

def toPylist (table : RecordBatch) : List Dict :=
  (List.range table.numRows).map fun row => (batchColumns table).zip
    (table.columns.map fun column => (column.dataType, column.cell row))

/-- SQLAlchemy and the server behind it. `insertMany` is `connection.execute(target.insert(),
rows)`, which reads a dictionary by its keys; `fails` says which of the other calls raise. -/
structure Core (V : Type) where
  fails : Nat → Bool
  insertMany : Table V → List Dict → Option (Table V)
  byKey : ∀ target rows rows', List.Forall₂ (fun row row' => ∀ key, Dict.get row key =
    Dict.get row' key) rows rows' → insertMany target rows = insertMany target rows'

/- The block of `engine.begin()`; where it raises, the transaction is rolled back. -/
def transaction (core : Core V) (target : Table V) (table : RecordBatch) (mode : InsertMode) :
    Option (Table V) := do
  if core.fails 1 then none
  let target ← match mode with
    | .Append => some target
    | .Truncate => if core.fails 2 then none else some { target with rows := [] }
  let rows := toPylist table
  let target ← if rows = [] then some target else core.insertMany target rows
  if core.fails 3 then none
  some target

/-- `insert`: the number of rows, or none where it raised, and the tables after it. -/
def insert (core : Core V) (tables : Tables V) (schema relation : Str) (table : RecordBatch)
    (mode : InsertMode) : Option Nat × Tables V :=
  if core.fails 0 then (none, tables)
  else
    match tables schema relation with
    | none => (none, tables)
    | some target =>
      match transaction core target table mode with
      | none => (none, tables)
      | some target => (some table.numRows, tables.set schema relation target)

/-! ### Reordered columns -/

theorem toPylist_reordered {table other : RecordBatch} (h : Reordered table other)
    (hnames : (batchColumns table).Nodup) :
    List.Forall₂ (fun row row' => ∀ key, Dict.get row key = Dict.get row' key)
      (toPylist table) (toPylist other) := by
  have hrow (row : Nat) (key : Str) :
      Dict.get ((batchColumns table).zip
          (table.columns.map fun column => (column.dataType, column.cell row))) key =
        Dict.get ((batchColumns other).zip
          (other.columns.map fun column => (column.dataType, column.cell row))) key := by
    have hpure (batch : RecordBatch) : batch.columns.mapM (fun column =>
        Except.ok (ε := DbError) (column.dataType, column.cell row)) =
          .ok (batch.columns.map fun column => (column.dataType, column.cell row)) :=
      List.mapM_pure
    obtain ⟨values, hvalues, hperm⟩ := row_reordered h _ (hpure table)
    rw [hpure other] at hvalues
    obtain rfl := Except.ok.inj hvalues
    unfold Dict.get
    have hkeys : (((batchColumns table).zip (table.columns.map fun column =>
        (column.dataType, column.cell row))).reverse.map Prod.fst).Nodup := by
      rw [List.map_reverse, List.nodup_reverse, List.map_fst_zip]
      · exact hnames
      · rw [List.length_map, batchColumns, List.length_map, schema_length]
    rw [Keyed.find_perm _ _ Prod.fst
      ((List.reverse_perm _).trans (hperm.trans (List.reverse_perm _).symm)) hkeys]
  unfold toPylist
  rw [← h.1]
  induction List.range table.numRows with
  | nil => exact .nil
  | cons row range ih => exact .cons (hrow row) ih

/-- A dictionary has its values by name, so the order of the columns does not matter. -/
theorem insert_reordered (core : Core V) (tables : Tables V) (schema relation : Str)
    {table other : RecordBatch} (h : Reordered table other) (hnames : (batchColumns table).Nodup)
    (mode : InsertMode) :
    insert core tables schema relation table mode =
      insert core tables schema relation other mode := by
  have hrows := toPylist_reordered h hnames
  have hempty : toPylist table = [] ↔ toPylist other = [] := by
    rw [← List.length_eq_zero_iff, ← List.length_eq_zero_iff, hrows.length_eq]
  have hinsert (target : Table V) := core.byKey target _ _ hrows
  simp only [insert, transaction, hempty, hinsert, h.1]

end FsspecDb.SqlAlchemy
