import FsspecDb.Insert.Copy

/-!
# A database server

Tables, one transaction at a time, and the statements of `Sql.Statement`. What the
server makes of a value, what it puts into a column that is not listed, and when it
fails are parameters.
-/

namespace FsspecDb.Insert
open Text

structure Table (V : Type) where
  columns : List Str
  rows : List (List V)

abbrev Tables (V : Type) := Str → Str → Option (Table V)

def Tables.set {V : Type} (tables : Tables V) (schema relation : Str) (table : Table V) :
    Tables V :=
  fun s r => if s = schema ∧ r = relation then some table else tables s r

@[simp]
theorem Tables.set_self (tables : Tables V) (schema relation : Str) (table : Table V) :
    tables.set schema relation table schema relation = some table := if_pos ⟨rfl, rfl⟩

@[simp]
theorem Tables.set_set (tables : Tables V) (schema relation : Str) (table table' : Table V) :
    (tables.set schema relation table).set schema relation table' =
      tables.set schema relation table' := by
  funext s r
  simp only [Tables.set]
  split <;> rfl

theorem Tables.set_eq_self (tables : Tables V) (schema relation : Str) (table : Table V)
    (h : tables schema relation = some table) : tables.set schema relation table = tables := by
  funext s r
  simp only [Tables.set]
  split
  · next heq => rw [heq.1, heq.2, h]
  · rfl

/-- What differs between servers: how names are quoted and compared, whether a column may
be listed twice, whether a transaction can take a TRUNCATE. -/
structure Rules where
  quote : Char
  fold : Str → Str
  listsTwice : Bool
  truncates : Bool

/-- A server. `coerce` stores a value in a column, `default` fills a column that is not
listed; both may refuse, and then the statement fails with `rejected`. `fails` says
which commands fail for a reason of their own. -/
structure Engine (V Arg : Type) where
  rules : Rules
  coerce : Str → Arg → Option V
  default : List (List V) → Str → Option V
  fails : Nat → Option DbError
  rejected : DbError

/-- A connection: what was committed, what the open transaction sees, and how many
commands were sent. -/
structure Session (V : Type) where
  committed : Tables V
  working : Tables V
  commands : Nat

namespace Engine

variable {V Arg : Type} (engine : Engine V Arg)

/-- The row that is stored for the values of the listed columns. -/
def storeRow (columns : List Str) (rows : List (List V)) (names : List Str) (args : List Arg) :
    Option (List V) :=
  columns.mapM fun column =>
    match (names.zip args).find? fun p => engine.rules.fold p.1 = engine.rules.fold column with
    | some (_, arg) => engine.coerce column arg
    | none => engine.default rows column

def storeRows (columns names : List Str) : List (List V) → List (List Arg) → Option (List (List V))
  | rows, [] => some rows
  | rows, args :: more => do
    let row ← engine.storeRow columns rows names args
    storeRows columns names (rows ++ [row]) more

def insertRows (table : Table V) (names : List Str) (values : List (List Arg)) :
    Option (Table V) :=
  if ∃ name ∈ names, ∀ column ∈ table.columns,
      engine.rules.fold column ≠ engine.rules.fold name then
    none
  else if engine.rules.listsTwice = false ∧ ¬ (names.map engine.rules.fold).Nodup then none
  else if ∃ args ∈ values, args.length ≠ names.length then none
  else (engine.storeRows table.columns names table.rows values).map fun rows => { table with rows }

/-- The arguments of each row, taken by position. -/
def splitGroups : List Nat → List Arg → Option (List (List Arg))
  | [], [] => some []
  | [], _ :: _ => none
  | n :: groups, args =>
    if args.length < n then none
    else (splitGroups groups (args.drop n)).map fun more => args.take n :: more

/-- A statement with its arguments: how many rows it affected, and the tables after it. -/
def runStatement (tables : Tables V) (statement : Sql.Statement) (args : List Arg) :
    Option (Nat × Tables V) :=
  match statement with
  | .delete schema relation => do
    let table ← tables schema relation
    some (table.rows.length, tables.set schema relation { table with rows := [] })
  | .truncate schema relation => do
    let table ← tables schema relation
    if engine.rules.truncates then some (0, tables.set schema relation { table with rows := [] })
    else none
  | .insert schema relation columns groups => do
    let table ← tables schema relation
    let values ← splitGroups groups args
    let table ← engine.insertRows table columns values
    some (values.length, tables.set schema relation table)
  | .copy _ _ _ _ => none

/-- The outcome of a command: a failure leaves the tables as they are. -/
def answer (session : Session V) (commands : Nat) (result : Option (Nat × Tables V)) :
    Except DbError Nat × Session V :=
  match result with
  | some (affected, working) => (.ok affected, { session with working, commands })
  | none => (.error engine.rejected, { session with commands })

def execute (session : Session V) (sql : Str) (args : List Arg) :
    Except DbError Nat × Session V :=
  match engine.fails session.commands with
  | some err => (.error err, { session with commands := session.commands + 1 })
  | none =>
    engine.answer session (session.commands + 1)
      ((Sql.parseStatement engine.rules.quote sql).bind fun statement =>
        engine.runStatement session.working statement args)

def begin (session : Session V) : Except DbError Unit × Session V :=
  match engine.fails session.commands with
  | some err => (.error err, { session with commands := session.commands + 1 })
  | none => (.ok (), { session with
      working := session.committed
      commands := session.commands + 1 })

def commit (session : Session V) : Except DbError Unit × Session V :=
  match engine.fails session.commands with
  | some err => (.error err, { session with commands := session.commands + 1 })
  | none => (.ok (), { session with
      committed := session.working
      commands := session.commands + 1 })

end Engine

/-- `copy_in_raw`, `send` and `finish`: a COPY statement and its data, read by the rules
of CSV. -/
def copyIn {V : Type} (engine : Engine V (Option (List Byte))) (session : Session V) (sql : Str)
    (data : List Byte) : Except DbError Nat × Session V :=
  let first := session.commands
  match engine.fails first <|> engine.fails (first + 1) <|> engine.fails (first + 2) with
  | some err => (.error err, { session with commands := first + 3 })
  | none =>
    engine.answer session (first + 3) do
      match ← Sql.parseStatement engine.rules.quote sql with
      | .copy schema relation columns null =>
        let table ← session.working schema relation
        let records ← Csv.read Postgres.csvFormat data
        let values := records.map fun record => record.map (Postgres.copyInput (Utf8.encode null))
        let table ← engine.insertRows table columns values
        some (values.length, session.working.set schema relation table)
      | _ => none

/-! ### What a command does -/

section
variable {V Arg : Type}

theorem begin_committed (engine : Engine V Arg) (session : Session V) :
    (engine.begin session).2.committed = session.committed := by
  unfold Engine.begin
  split <;> rfl

variable {engine : Engine V Arg} {session session' : Session V}

theorem answer_committed (commands : Nat) (result : Option (Nat × Tables V)) :
    (engine.answer session commands result).2.committed = session.committed := by
  cases result <;> rfl

theorem answer_ok {commands affected : Nat} {result : Option (Nat × Tables V)}
    (h : engine.answer session commands result = (.ok affected, session')) :
    result = some (affected, session'.working) := by
  cases result with
  | none => simp [Engine.answer] at h
  | some outcome =>
    rw [Engine.answer, Prod.mk.injEq] at h
    rw [← h.2, ← Except.ok.inj h.1]

theorem execute_committed (sql : Str) (args : List Arg) :
    (engine.execute session sql args).2.committed = session.committed := by
  unfold Engine.execute
  split
  · rfl
  · exact answer_committed ..

theorem execute_ok {sql : Str} {args : List Arg} {affected : Nat} {statement : Sql.Statement}
    (hparse : Sql.parseStatement engine.rules.quote sql = some statement)
    (h : engine.execute session sql args = (.ok affected, session')) :
    engine.runStatement session.working statement args = some (affected, session'.working) := by
  unfold Engine.execute at h
  split at h
  · simp at h
  · rw [hparse] at h
    exact answer_ok h

theorem begin_ok (h : engine.begin session = (.ok (), session')) :
    session'.working = session.committed := by
  unfold Engine.begin at h
  split at h
  · simp at h
  · rw [Prod.mk.injEq] at h
    rw [← h.2]

theorem commit_error {err : DbError} (h : engine.commit session = (.error err, session')) :
    session'.committed = session.committed := by
  unfold Engine.commit at h
  split at h
  · rw [Prod.mk.injEq] at h
    rw [← h.2]
  · simp at h

theorem commit_ok (h : engine.commit session = (.ok (), session')) :
    session'.committed = session.working := by
  unfold Engine.commit at h
  split at h
  · simp at h
  · rw [Prod.mk.injEq] at h
    rw [← h.2]

theorem splitGroups_flatten (n : Nat) (values : List (List Arg))
    (h : ∀ args ∈ values, args.length = n) :
    Engine.splitGroups (List.replicate values.length n) values.flatten = some values := by
  induction values with
  | nil => rfl
  | cons args values ih =>
    rw [List.forall_mem_cons] at h
    rw [List.length_cons, List.replicate_succ, List.flatten_cons, Engine.splitGroups,
      if_neg (by rw [List.length_append]; omega), ← h.1, List.drop_left, List.take_left, h.1,
      ih h.2]
    rfl

end

section
variable {V : Type} {engine : Engine V (Option (List Byte))}

theorem copyIn_committed (session : Session V) (sql : Str) (data : List Byte) :
    (copyIn engine session sql data).2.committed = session.committed := by
  unfold copyIn
  dsimp only
  split
  · rfl
  · exact answer_committed ..

theorem copyIn_ok {session session' : Session V} {sql : Str} {data : List Byte} {affected : Nat}
    {schema relation null : Str} {columns : List Str} {table : Table V}
    {records : List (List (Csv.Field Byte))}
    (hparse : Sql.parseStatement engine.rules.quote sql = some (.copy schema relation columns null))
    (htable : session.working schema relation = some table)
    (hread : Csv.read Postgres.csvFormat data = some records)
    (h : copyIn engine session sql data = (.ok affected, session')) :
    ∃ after, engine.insertRows table columns
        (records.map fun record => record.map (Postgres.copyInput (Utf8.encode null))) =
          some after ∧
      affected = records.length ∧ session'.working = session.working.set schema relation after := by
  unfold copyIn at h
  dsimp only at h
  split at h
  · simp at h
  · have hanswer := answer_ok h
    simp only [hparse, htable, hread, Option.bind_eq_bind, Option.bind_some] at hanswer
    obtain ⟨after, hafter, hresult⟩ := Option.bind_eq_some_iff.mp hanswer
    rw [Option.some.injEq, Prod.mk.injEq, List.length_map] at hresult
    exact ⟨after, hafter, hresult.1.symm, hresult.2.symm⟩

end

end FsspecDb.Insert
