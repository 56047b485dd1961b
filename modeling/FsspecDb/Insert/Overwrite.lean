import FsspecDb.Insert.ByName

/-!
# A DuckDB insert that raises

The rows are lost where the DELETE was kept and the INSERT raised, and the registration stays
where `unregister` raised.
-/

namespace FsspecDb.DuckDb
open Text Fs FsspecDb.Insert

variable {V : Type}

/-- If the call raised, the rows of the relation are those before it and nothing is registered
under the temporary name. -/
def NothingLost (s : State V) (schema relation : Str) (outcome : Option Nat × State V) : Prop :=
  outcome.1 = none →
    outcome.2.tables schema relation = s.tables schema relation ∧
      outcome.2.registered temporary = none

/-- Where the table cannot be registered, none was before. Where it can, `unregister` returns,
and in truncate mode a relation with rows is emptied only for rows that are stored. -/
def Guarded (core : Core V) (target : Table V) (table : RecordBatch) (mode : InsertMode)
    (s : State V) : Prop :=
  (core.fails .register = true → s.registered temporary = none) ∧
    (core.fails .register = false → core.fails .unregister = false ∧
      (mode = .Truncate → core.fails .delete = false →
        (core.fails .insert = true ∨ core.stored { target with rows := [] } table = none) →
        target.rows = []))

/- The block raised and left the rows, if and only if nothing was deleted or nothing was there. -/
theorem after_keeps_iff (core : Core V) (target : Table V) (table : RecordBatch)
    (mode : InsertMode) :
    ((core.after target table mode).1 = true → (core.after target table mode).2 = target) ↔
      (mode = .Truncate → core.fails .delete = false →
        (core.fails .insert = true ∨ core.stored { target with rows := [] } table = none) →
        target.rows = []) := by
  have hempty (h : { target with rows := [] } = target) : target.rows = [] := by rw [← h]
  have htarget (h : target.rows = []) : { target with rows := [] } = target := by rw [← h]
  cases mode with
  | Append =>
    refine iff_of_true ?_ fun h => by cases h
    unfold Core.after
    rw [if_neg (by simp)]
    simp only [kept]
    split
    · exact fun _ => rfl
    · cases core.stored target table with
      | none => exact fun _ => rfl
      | some rows => exact fun h => by cases h
  | Truncate =>
    unfold Core.after
    cases hdelete : core.fails .delete with
    | true => simp
    | false =>
      simp only [Bool.false_eq_true, and_false, if_false, kept]
      cases hinsert : core.fails .insert with
      | true =>
        simp only [if_true, forall_const, true_or]
        exact ⟨hempty, htarget⟩
      | false =>
        simp only [Bool.false_eq_true, if_false, false_or, forall_const]
        cases hstored : core.stored { target with rows := [] } table with
        | none =>
          simp only [forall_const]
          exact ⟨hempty, htarget⟩
        | some rows => simp

theorem insert_nothingLost_iff {core : Core V} {connection : Connection V} {schema relation : Str}
    {target : Table V} {table : RecordBatch} {s : State V}
    (h : Documented core connection schema relation)
    (htarget : s.tables schema relation = some target) (mode : InsertMode) :
    NothingLost s schema relation (insert connection schema relation table mode s) ↔
      Guarded core target table mode s := by
  rw [NothingLost, Guarded, insert_eq h htarget, ← after_keeps_iff]
  cases core.fails .register with
  | true => simp
  | false =>
    cases core.fails .unregister with
    | true => simp
    | false =>
      simp only [Bool.false_eq_true, if_false, Tables.set_self, register_self, and_true, htarget,
        Option.some.injEq, false_implies, true_and, forall_const]
      cases (core.after target table mode).1 <;> simp

/-! ### `PyDatabaseFileSystem._write` (python.py) -/

/-- `_Path`, for the path of a file. -/
structure PyPath where
  schema : Str
  relation : Str
  kind : Str
  format : Str

/-- The filesystem as far as `_write` uses it; what may raise returns none. -/
structure Reader (V : Type) where
  parsePath : Str → Option PyPath
  relationInfo : Str → Str → State V → Option RelationInfo
  decode : List Byte → Str → Option RecordBatch

/- The schema, the relation and the table that `_write` passes to `insert`. -/
def decoded (reader : Reader V) (path : Str) (data : List Byte) (s : State V) :
    Option (Str × Str × RecordBatch) := do
  let parsed ← reader.parsePath path
  if parsed.kind ≠ "data".toList ∨ parsed.format = "sql".toList then none
  let relation ← reader.relationInfo parsed.schema parsed.relation s
  if relation.kind ≠ .Table then none
  let table ← reader.decode data parsed.format
  some (parsed.schema, parsed.relation, table)

/-- `_write` as `pipe_file` and the commit of a write handle call it. -/
def write (reader : Reader V) (connection : Connection V) (path : Str) (data : List Byte)
    (mode : InsertMode) (s : State V) : Option Nat × State V :=
  match decoded reader path data s with
  | none => (none, s)
  | some (schema, relation, table) => insert connection schema relation table mode s

/-- A call that raises loses nothing if and only if it is `Guarded`. A write that raises before
the insert has changed nothing. -/
theorem nothingLost_iff {core : Core V} {connection : Connection V} {schema relation : Str}
    {target : Table V} {s : State V} (h : Documented core connection schema relation)
    (htarget : s.tables schema relation = some target) (mode : InsertMode) :
    (∀ table : RecordBatch,
      NothingLost s schema relation (insert connection schema relation table mode s) ↔
        Guarded core target table mode s) ∧
    ∀ (reader : Reader V) (path : Str) (data : List Byte),
      (decoded reader path data s = none →
        (NothingLost s schema relation (write reader connection path data mode s) ↔
          s.registered temporary = none)) ∧
      ∀ table, decoded reader path data s = some (schema, relation, table) →
        (NothingLost s schema relation (write reader connection path data mode s) ↔
          Guarded core target table mode s) := by
  refine ⟨fun table => insert_nothingLost_iff h htarget mode, fun reader path data => ⟨?_, ?_⟩⟩
  · intro hnone
    simp only [write, hnone, NothingLost, true_and, forall_const]
  · intro table hsome
    simp only [write, hsome]
    exact insert_nothingLost_iff h htarget mode

/-- A batch with one column for a table with two. -/
def firstNames : RecordBatch where
  schema := [⟨"first".toList, .Utf8, true⟩]
  columns := [.utf8 [some "Grace".toList]]
  numRows := 1
  wellFormed := by decide

theorem refused_append_loses_nothing :
    NothingLost ⟨namesTables, fun _ => none⟩ "main".toList "names".toList
        (insert (twoStatements textCore "main".toList "names".toList) "main".toList "names".toList
          firstNames .Append ⟨namesTables, fun _ => none⟩) ∧
      (insert (twoStatements textCore "main".toList "names".toList) "main".toList "names".toList
        firstNames .Append ⟨namesTables, fun _ => none⟩).1 = none := by
  have h := nothingLost_iff (twoStatements_documented textCore "main".toList "names".toList)
    (s := ⟨namesTables, fun _ => none⟩) (Tables.set_self (fun _ _ => none) "main".toList
      "names".toList namesTable) .Append
  refine ⟨(h.1 firstNames).mpr ⟨fun _ => rfl, fun _ => ⟨rfl, fun hmode => ?_⟩⟩, by decide⟩
  cases hmode

/-- The table is empty after an overwrite that was refused. -/
theorem refused_overwrite_empties :
    ¬ ∀ (core : Core (Option Str)) (connection : Connection (Option Str)) (schema relation : Str)
        (target : Table (Option Str)) (table : RecordBatch) (mode : InsertMode)
        (s : State (Option Str)),
      Documented core connection schema relation → s.tables schema relation = some target →
      NothingLost s schema relation (insert connection schema relation table mode s) := by
  intro h
  have hkept := h textCore _ "main".toList "names".toList namesTable firstNames .Truncate
    ⟨namesTables, fun _ => none⟩
    (twoStatements_documented textCore "main".toList "names".toList)
    (Tables.set_self (fun _ _ => none) "main".toList "names".toList namesTable) (by decide)
  exact absurd (congrArg (Option.map Table.rows) hkept.1) (by decide)

end FsspecDb.DuckDb
