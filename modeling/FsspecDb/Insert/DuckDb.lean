import FsspecDb.Insert.Transaction
import FsspecDb.Insert.Reordered

/-!
# `DuckDBDatabase.insert` (duckdb.py)

The connection is in autocommit mode: the DELETE of truncate mode is kept when the INSERT that
follows it raises. The INSERT selects all columns of the registered table, so that values go
to columns by position.
-/

namespace FsspecDb.DuckDb
open Text Fs FsspecDb.Insert

variable {V : Type}

/-- The tables of the database, and the Arrow tables registered with the connection. -/
structure State (V : Type) where
  tables : Tables V
  registered : Str → Option RecordBatch

def State.register (s : State V) (name : Str) (table : Option RecordBatch) : State V :=
  { s with registered := fun other => if other = name then table else s.registered other }

@[simp]
theorem register_self (s : State V) (name : Str) (table : Option RecordBatch) :
    (s.register name table).registered name = table := if_pos rfl

/-- Each call takes effect or raises, and then it has no effect. -/
structure Connection (V : Type) where
  register : Str → RecordBatch → State V → Option (State V)
  unregister : Str → State V → Option (State V)
  execute : Str → State V → Option (State V)

def temporary : Str := "__fsspec_db_insert".toList

def deleteSql (schema relation : Str) : Str :=
  "DELETE FROM \"".toList ++ schema ++ "\".\"".toList ++ relation ++ ['"']

def insertSql (schema relation : Str) : Str :=
  "INSERT INTO \"".toList ++ schema ++ "\".\"".toList ++ relation ++
    "\" SELECT * FROM ".toList ++ temporary

/- The block of `try`: whether it raised, and the state after it. -/
def writeRows (connection : Connection V) (schema relation : Str) (mode : InsertMode)
    (s : State V) : Bool × State V :=
  let emptied := match mode with
    | .Append => some s
    | .Truncate => connection.execute (deleteSql schema relation) s
  match emptied with
  | none => (true, s)
  | some s =>
    match connection.execute (insertSql schema relation) s with
    | none => (true, s)
    | some s => (false, s)

/-- `insert`: the number of rows, or none where it raised, and the state after it. -/
def insert (connection : Connection V) (schema relation : Str) (table : RecordBatch)
    (mode : InsertMode) (s : State V) : Option Nat × State V :=
  match connection.register temporary table s with
  | none => (none, s)
  | some s =>
    let (raised, s) := writeRows connection schema relation mode s
    match connection.unregister temporary s with
    | none => (none, s)
    | some s => (if raised then none else some table.numRows, s)

/-! ### What DuckDB does with the calls -/

inductive Step where
  | register
  | delete
  | insert
  | unregister
  deriving DecidableEq

/-- `fails` says which calls raise whatever the data is. `binds` says whether there is a cast
from the types to the columns, `cast` stores a value in a column, and `accepts` are the
constraints of a table. -/
structure Core (V : Type) where
  fails : Step → Bool
  binds : List Str → List DataType → Bool
  cast : Str → DataType → CellValue → Option V
  accepts : Table V → Bool

/- A row of the registered table, cast column by column from the left. -/
def Core.castRow (core : Core V) (columns : List Str) (table : RecordBatch) (row : Nat) :
    Option (List V) :=
  (columns.zip table.columns).mapM fun p => core.cast p.1 p.2.dataType (p.2.cell row)

/-- The rows that the INSERT stores, or none where it raises. -/
def Core.stored (core : Core V) (target : Table V) (table : RecordBatch) :
    Option (List (List V)) :=
  if core.binds target.columns (table.columns.map ArrowArray.dataType) then
    ((List.range table.numRows).mapM (core.castRow target.columns table)).filter fun rows =>
      core.accepts { target with rows := target.rows ++ rows }
  else none

/-- The texts are read as the statements on the relation. A name with a double quote in it
would end early. -/
structure Documented (core : Core V) (connection : Connection V) (schema relation : Str) :
    Prop where
  register : ∀ name table s, connection.register name table s =
    if core.fails .register then none else some (s.register name (some table))
  unregister : ∀ name s, connection.unregister name s =
    if core.fails .unregister then none else some (s.register name none)
  delete : ∀ s, connection.execute (deleteSql schema relation) s =
    if core.fails .delete then none
    else (s.tables schema relation).map fun target =>
      { s with tables := s.tables.set schema relation { target with rows := [] } }
  insert : ∀ s, connection.execute (insertSql schema relation) s =
    if core.fails .insert then none
    else (s.tables schema relation).bind fun target =>
      (s.registered temporary).bind fun table =>
        (core.stored target table).map fun rows => { s with
          tables := s.tables.set schema relation { target with rows := target.rows ++ rows } }

/-- A connection that takes these two texts only. -/
def twoStatements (core : Core V) (schema relation : Str) : Connection V where
  register name table s :=
    if core.fails .register then none else some (s.register name (some table))
  unregister name s := if core.fails .unregister then none else some (s.register name none)
  execute text s :=
    if text = deleteSql schema relation then
      if core.fails .delete then none
      else (s.tables schema relation).map fun target =>
        { s with tables := s.tables.set schema relation { target with rows := [] } }
    else if text = insertSql schema relation then
      if core.fails .insert then none
      else (s.tables schema relation).bind fun target =>
        (s.registered temporary).bind fun table =>
          (core.stored target table).map fun rows => { s with
            tables := s.tables.set schema relation { target with rows := target.rows ++ rows } }
    else none

theorem twoStatements_documented (core : Core V) (schema relation : Str) :
    Documented core (twoStatements core schema relation) schema relation where
  register _ _ _ := rfl
  unregister _ _ := rfl
  delete _ := if_pos rfl
  insert s := by
    have hne : insertSql schema relation ≠ deleteSql schema relation := by
      intro h
      have hhead : some 'I' = some 'D' := congrArg List.head? h
      exact absurd hhead (by decide)
    simp only [twoStatements, if_neg hne, if_true]

/-- Whether the block raises, and what it leaves of the table. -/
def Core.after (core : Core V) (target : Table V) (table : RecordBatch) (mode : InsertMode) :
    Bool × Table V :=
  if mode = .Truncate ∧ core.fails .delete = true then (true, target)
  else
    let emptied := { target with rows := kept mode target.rows }
    if core.fails .insert then (true, emptied)
    else
      match core.stored emptied table with
      | none => (true, emptied)
      | some rows => (false, { target with rows := kept mode target.rows ++ rows })

section
variable {core : Core V} {connection : Connection V} {schema relation : Str} {target : Table V}
  {table : RecordBatch} {s : State V} (h : Documented core connection schema relation)
  (htarget : s.tables schema relation = some target)
include h htarget

theorem writeRows_eq (mode : InsertMode) (hregistered : s.registered temporary = some table) :
    writeRows connection schema relation mode s =
      ((core.after target table mode).1,
        { s with tables := s.tables.set schema relation (core.after target table mode).2 }) := by
  have hself : { s with tables := s.tables.set schema relation target } = s := by
    rw [Tables.set_eq_self _ _ _ _ htarget]
  cases mode with
  | Append =>
    have hempty : core.after target table .Append =
        if core.fails .insert then (true, target)
        else match core.stored target table with
          | none => (true, target)
          | some rows => (false, { target with rows := target.rows ++ rows }) := rfl
    rw [hempty, writeRows, h.insert, htarget, hregistered]
    cases core.fails .insert with
    | true => exact Prod.ext rfl hself.symm
    | false =>
      simp only [Bool.false_eq_true, if_false, Option.bind_some]
      cases core.stored target table with
      | none => exact Prod.ext rfl hself.symm
      | some rows => rfl
  | Truncate =>
    simp only [writeRows, h.delete, htarget, Core.after, true_and]
    cases core.fails .delete with
    | true => exact Prod.ext rfl hself.symm
    | false =>
      simp only [Bool.false_eq_true, if_false, Option.map_some, h.insert, Tables.set_self,
        hregistered, Option.bind_some, kept, List.nil_append]
      cases core.fails .insert with
      | true => rfl
      | false =>
        simp only [Bool.false_eq_true, if_false]
        cases core.stored { target with rows := [] } table with
        | none => rfl
        | some rows => simp only [Option.map_some, Tables.set_set]

theorem insert_eq (mode : InsertMode) :
    insert connection schema relation table mode s =
      if core.fails .register then (none, s)
      else
        let tables := s.tables.set schema relation (core.after target table mode).2
        if core.fails .unregister then
          (none, { s.register temporary (some table) with tables })
        else
          (if (core.after target table mode).1 then none else some table.numRows,
            { s.register temporary none with tables }) := by
  rw [insert, h.register]
  cases core.fails .register with
  | true => rfl
  | false =>
    have htables : (s.register temporary (some table)).tables schema relation = some target :=
      htarget
    have htwice (tables : Tables V) :
        State.register { s.register temporary (some table) with tables } temporary none =
          { s.register temporary none with tables } := by
      have hnames : (fun other => if other = temporary then none
          else if other = temporary then some table else s.registered other) =
            fun other => if other = temporary then none else s.registered other := by
        funext other
        split <;> rfl
      exact congrArg (State.mk tables) hnames
    simp only [Bool.false_eq_true, if_false, writeRows_eq h htables mode (register_self ..),
      h.unregister]
    cases core.fails .unregister with
    | true => rfl
    | false =>
      simp only [Bool.false_eq_true, if_false]
      exact congrArg (Prod.mk _) (htwice _)

/-- The rows of the relation after the call. -/
theorem insert_tables (mode : InsertMode) :
    (insert connection schema relation table mode s).2.tables schema relation =
      some (if core.fails .register then target else (core.after target table mode).2) := by
  rw [insert_eq h htarget]
  cases core.fails .register with
  | true => exact htarget
  | false => cases core.fails .unregister <;> exact Tables.set_self ..

end

end FsspecDb.DuckDb
