import FsspecDb.Bridge.PyObjects

/-!
# A database written in Python (database.rs of the Python module, spec.py)

`PyDatabase` calls the methods of a Python object. An object that keeps to the contract of
`AbstractDatabase` is a database with the same answers, in whichever form it gives them.
-/

namespace FsspecDb.Bridge.Backend
open Fs

/-- The methods of a Python object over contents `σ`. -/
structure PyMethods (σ Table : Type) where
  dialect : Str
  listSchemas : σ → Except PyException PyObject
  listRelations : σ → Str → Except PyException PyObject
  listColumns : σ → Str → Str → Except PyException PyObject
  listIndexes : σ → Str → Str → Except PyException PyObject
  listConstraints : σ → Str → Str → Except PyException PyObject
  relationInfo : σ → Str → Str → Except PyException PyObject
  viewDefinition : σ → Str → Str → Except PyException PyObject
  insert : σ → Str → Str → Table → Str → Except PyException PyObject × σ

def parseDialect (dialect : Str) : Except PyException Dialect :=
  if dialect = "generic".toList then .ok .Generic
  else if dialect = "sqlite".toList then .ok .Sqlite
  else if dialect = "postgres".toList ∨ dialect = "postgresql".toList then .ok .Postgres
  else if dialect = "mysql".toList then .ok .MySql
  else .error (valueError ("unknown database dialect: ".toList ++ dialect))

def insertModeAsStr : InsertMode → Str
  | .Append => "append".toList
  | .Truncate => "truncate".toList

section
variable {σ Stream Table : Type} (castError : Str → PyObject → PyException)
  (viewDependencies : Str → List Str) (toTable : Stream → Except DbError Table)

/- `map_py(call)?` and `map_py(convert(&value))`. -/
def callAndRead {α : Type} (convert : PyObject → Except PyException α)
    (answer : Except PyException PyObject) : Except DbError α := do
  mapPy (convert (← mapPy answer))

/-- `impl Database for PyDatabase`. `toTable` is `arrow_to_ipc` and `ipc_to_table`. -/
def pyDatabase (dialect : Dialect) (methods : PyMethods σ Table) : Database σ Stream where
  dialect := dialect
  listSchemas s := callAndRead (collectPyVec castError (schemaFromPy castError))
    (methods.listSchemas s)
  listRelations s schema := callAndRead (collectPyVec castError (relationFromPy castError))
    (methods.listRelations s schema)
  listColumns s schema relation := callAndRead (collectPyVec castError (columnFromPy castError))
    (methods.listColumns s schema relation)
  listIndexes s schema relation := callAndRead (collectPyVec castError (indexFromPy castError))
    (methods.listIndexes s schema relation)
  listConstraints s schema relation :=
    callAndRead (collectPyVec castError (constraintFromPy castError))
      (methods.listConstraints s schema relation)
  relationInfo s schema relation := callAndRead (relationFromPy castError)
    (methods.relationInfo s schema relation)
  viewDefinition s schema view := callAndRead (extractString castError)
    (methods.viewDefinition s schema view)
  insert s schema relation batches mode :=
    match toTable batches with
    | .error err => (.error err, s)
    | .ok table =>
      let (answer, s) := methods.insert s schema relation table (insertModeAsStr mode)
      (callAndRead (extractU64 castError) answer, s)
  viewDependencies := viewDependencies

/-- `PyDatabase::new`, and the database that it makes. -/
def newPyDatabase (methods : PyMethods σ Table) : Except PyException (Database σ Stream) := do
  let dialect ← parseDialect methods.dialect
  return pyDatabase castError viewDependencies toTable dialect methods

/-! ### The contract of `AbstractDatabase` -/

/-- What the methods mean: metadata as the exported classes, exceptions as they are raised. -/
structure AbstractDatabase (σ Table : Type) where
  dialect : Dialect
  listSchemas : σ → Except PyException (List SchemaInfo)
  listRelations : σ → Str → Except PyException (List RelationInfo)
  listColumns : σ → Str → Str → Except PyException (List ColumnInfo)
  listIndexes : σ → Str → Str → Except PyException (List IndexInfo)
  listConstraints : σ → Str → Str → Except PyException (List ConstraintInfo)
  relationInfo : σ → Str → Str → Except PyException RelationInfo
  viewDefinition : σ → Str → Str → Except PyException Str
  insert : σ → Str → Str → Table → InsertMode → Except PyException UInt64 × σ

/-- The database with the answers of the Python one, as the filesystem sees it. -/
def AbstractDatabase.bridged (db : AbstractDatabase σ Table) : Database σ Stream where
  dialect := db.dialect
  listSchemas s := mapPy (db.listSchemas s)
  listRelations s schema := mapPy (db.listRelations s schema)
  listColumns s schema relation := mapPy (db.listColumns s schema relation)
  listIndexes s schema relation := mapPy (db.listIndexes s schema relation)
  listConstraints s schema relation := mapPy (db.listConstraints s schema relation)
  relationInfo s schema relation := mapPy (db.relationInfo s schema relation)
  viewDefinition s schema view := mapPy (db.viewDefinition s schema view)
  insert s schema relation batches mode :=
    match toTable batches with
    | .error err => (.error err, s)
    | .ok table =>
      let (written, s) := db.insert s schema relation table mode
      (mapPy written, s)
  viewDependencies := viewDependencies

/- The exception that is meant, or an object that stands for the value that is meant. -/
def Answers {α : Type} (Stands : PyObject → α → Prop) (answer : Except PyException PyObject)
    (result : Except PyException α) : Prop :=
  match answer, result with
  | .ok obj, .ok value => Stands obj value
  | .error err, .error err' => err = err'
  | _, _ => False

/- One of the three objects that carry the fields. -/
def Carries {α : Type} (toDict : α → List (Str × PyObject)) (obj : PyObject) (value : α) : Prop :=
  ∃ form : Form, obj = form.object (toDict value)

/- Each item of the list in a form of its own. -/
def CarriesAll {α : Type} (toDict : α → List (Str × PyObject)) (obj : PyObject)
    (values : List α) : Prop :=
  ∃ objs, obj = .list objs ∧ List.Forall₂ (Carries toDict) objs values

/-- The Python object keeps to the contract. -/
structure Serves (methods : PyMethods σ Table) (db : AbstractDatabase σ Table) : Prop where
  dialect : parseDialect methods.dialect = .ok db.dialect
  listSchemas : ∀ s, Answers (CarriesAll schemaToDict) (methods.listSchemas s) (db.listSchemas s)
  listRelations : ∀ s schema, Answers (CarriesAll relationToDict)
    (methods.listRelations s schema) (db.listRelations s schema)
  listColumns : ∀ s schema relation, Answers (CarriesAll columnToDict)
    (methods.listColumns s schema relation) (db.listColumns s schema relation)
  listIndexes : ∀ s schema relation, Answers (CarriesAll indexToDict)
    (methods.listIndexes s schema relation) (db.listIndexes s schema relation)
  listConstraints : ∀ s schema relation, Answers (CarriesAll constraintToDict)
    (methods.listConstraints s schema relation) (db.listConstraints s schema relation)
  relationInfo : ∀ s schema relation, Answers (Carries relationToDict)
    (methods.relationInfo s schema relation) (db.relationInfo s schema relation)
  viewDefinition : ∀ s schema view, Answers (fun obj text => obj = .str text)
    (methods.viewDefinition s schema view) (db.viewDefinition s schema view)
  insert : ∀ s schema relation table mode,
    Answers (fun obj (n : UInt64) => obj = .int n.toNat)
        (methods.insert s schema relation table (insertModeAsStr mode)).1
        (db.insert s schema relation table mode).1 ∧
      (methods.insert s schema relation table (insertModeAsStr mode)).2 =
        (db.insert s schema relation table mode).2

/-! ### One method -/

theorem callAndRead_of_answers {α : Type} (Stands : PyObject → α → Prop)
    (convert : PyObject → Except PyException α)
    (hread : ∀ obj value, Stands obj value → convert obj = .ok value)
    (answer : Except PyException PyObject) (result : Except PyException α)
    (h : Answers Stands answer result) : callAndRead convert answer = mapPy result := by
  cases answer with
  | error err =>
    cases result with
    | error err' =>
      rw [show err = err' from h]
      rfl
    | ok value => exact absurd h id
  | ok obj =>
    cases result with
    | error err => exact absurd h id
    | ok value =>
      change mapPy (convert obj) = mapPy (.ok value)
      rw [hread obj value h]

theorem collectPyVec_carriesAll {α : Type} (toDict : α → List (Str × PyObject))
    (convert : PyObject → Except PyException α)
    (hread : ∀ (form : Form) value, convert (form.object (toDict value)) = .ok value)
    (obj : PyObject) (values : List α) (h : CarriesAll toDict obj values) :
    collectPyVec castError convert obj = .ok values := by
  obtain ⟨objs, rfl, hobjs⟩ := h
  apply Checked.mapM_eq_ok_iff.mpr
  refine hobjs.imp ?_
  intro item value hitem
  obtain ⟨form, rfl⟩ := hitem
  exact hread form value

theorem relationFromPy_carries (obj : PyObject) (relation : RelationInfo)
    (h : Carries relationToDict obj relation) : relationFromPy castError obj = .ok relation := by
  obtain ⟨form, rfl⟩ := h
  exact relationFromPy_object castError form relation

theorem pyDatabase_insert (methods : PyMethods σ Table) (db : AbstractDatabase σ Table)
    (h : Serves methods db) (s : σ) (schema relation : Str) (batches : Stream)
    (mode : InsertMode) :
    (pyDatabase castError viewDependencies toTable db.dialect methods).insert s schema relation
        batches mode =
      (db.bridged viewDependencies toTable).insert s schema relation batches mode := by
  simp only [pyDatabase, AbstractDatabase.bridged]
  cases toTable batches with
  | error err => rfl
  | ok table =>
    obtain ⟨hanswer, hcontents⟩ := h.insert s schema relation table mode
    refine Prod.ext ?_ hcontents
    apply callAndRead_of_answers _ _ _ _ _ hanswer
    intro obj n hobj
    rw [hobj, extractU64_int]

theorem newPyDatabase_of_serves (methods : PyMethods σ Table) (db : AbstractDatabase σ Table)
    (h : Serves methods db) : newPyDatabase castError viewDependencies toTable methods =
      .ok (db.bridged viewDependencies toTable) := by
  rw [newPyDatabase, h.dialect]
  apply congrArg Except.ok
  have hall {α : Type} (toDict : α → List (Str × PyObject))
      (convert : PyObject → Except PyException α)
      (hread : ∀ (form : Form) value, convert (form.object (toDict value)) = .ok value) :=
    callAndRead_of_answers (CarriesAll toDict) (collectPyVec castError convert)
      (collectPyVec_carriesAll castError toDict convert hread)
  have hschemas : ∀ s, _ = _ := fun s =>
    hall _ _ (schemaFromPy_object castError) _ _ (h.listSchemas s)
  have hrelations : ∀ s schema, _ = _ := fun s schema =>
    hall _ _ (relationFromPy_object castError) _ _ (h.listRelations s schema)
  have hcolumns : ∀ s schema relation, _ = _ := fun s schema relation =>
    hall _ _ (columnFromPy_object castError) _ _ (h.listColumns s schema relation)
  have hindexes : ∀ s schema relation, _ = _ := fun s schema relation =>
    hall _ _ (indexFromPy_object castError) _ _ (h.listIndexes s schema relation)
  have hconstraints : ∀ s schema relation, _ = _ := fun s schema relation =>
    hall _ _ (constraintFromPy_object castError) _ _ (h.listConstraints s schema relation)
  have hinfo : ∀ s schema relation, _ = _ := fun s schema relation =>
    callAndRead_of_answers _ _ (relationFromPy_carries castError) _ _
      (h.relationInfo s schema relation)
  have hdefinition : ∀ s schema view, _ = _ := fun s schema view =>
    callAndRead_of_answers _ (extractString castError) (fun _ _ hobj => by rw [hobj]; rfl) _ _
      (h.viewDefinition s schema view)
  have hinsert := funext fun s => funext fun schema => funext fun relation =>
    funext fun batches => funext fun mode =>
      pyDatabase_insert castError viewDependencies toTable methods db h s schema relation batches
        mode
  rw [AbstractDatabase.bridged] at hinsert ⊢
  rw [pyDatabase] at hinsert ⊢
  simp only [hschemas, hrelations, hcolumns, hindexes, hconstraints, hinfo, hdefinition,
    Database.mk.injEq, true_and, and_true]
  exact hinsert

/-- A Python object that keeps to the contract is the database that it means: every answer is
the same whatever the form of each object, and an exception comes back under the class of the
first of six kinds that it is of, or as `OSError`, with its text. -/
theorem pyDatabase_eq_bridged (methods : PyMethods σ Table) (db : AbstractDatabase σ Table)
    (h : Serves methods db) :
    newPyDatabase castError viewDependencies toTable methods =
        .ok (db.bridged viewDependencies toTable) ∧
      ∀ err : PyException, dbErrorToPyerr (pyerrToDbError err) = ⟨err.bridged, err.text⟩ :=
  ⟨newPyDatabase_of_serves castError viewDependencies toTable methods db h,
    dbErrorToPyerr_pyerrToDbError⟩

end

/-! ### A small database -/

def users : RelationInfo := ⟨"users".toList, .Table, some 3, none, none⟩

def noSuchRelation : PyException :=
  ⟨[.FileNotFoundError, .OSError], "FileNotFoundError: no such relation".toList⟩

/- Two schemas, a table with an index, and what was inserted last. -/
def smallDatabase : AbstractDatabase Nat Nat where
  dialect := .Postgres
  listSchemas _ := .ok [⟨"main".toList, none, none⟩, ⟨"temp".toList, some "db".toList, none⟩]
  listRelations _ _ := .ok [users]
  listColumns _ _ _ := .ok [⟨"id".toList, "int".toList, false, none, 1, true, none⟩]
  listIndexes _ _ _ := .ok [⟨"by_id".toList, ["id".toList], true, none⟩]
  listConstraints _ _ _ := .ok []
  relationInfo _ _ relation := if relation = users.name then .ok users else .error noSuchRelation
  viewDefinition _ _ _ := .error noSuchRelation
  insert _ _ _ table _ := (.ok 1, table)

def smallMethods : PyMethods Nat Nat where
  dialect := "postgresql".toList
  listSchemas _ := .ok (.list [Form.object .dict (schemaToDict ⟨"main".toList, none, none⟩),
    Form.object .info (schemaToDict ⟨"temp".toList, some "db".toList, none⟩)])
  listRelations _ _ := .ok (.list [Form.object .toDict (relationToDict users)])
  listColumns _ _ _ := .ok (.list [Form.object .info
    (columnToDict ⟨"id".toList, "int".toList, false, none, 1, true, none⟩)])
  listIndexes _ _ _ := .ok (.list [Form.object .info
    (indexToDict ⟨"by_id".toList, ["id".toList], true, none⟩)])
  listConstraints _ _ _ := .ok (.list [])
  relationInfo _ _ relation :=
    if relation = users.name then .ok (Form.object .info (relationToDict users))
    else .error noSuchRelation
  viewDefinition _ _ _ := .error noSuchRelation
  insert _ _ _ table _ := (.ok (.int 1), table)

theorem smallMethods_serves : Serves smallMethods smallDatabase where
  dialect := by decide
  listSchemas _ := ⟨_, rfl, .cons ⟨.dict, rfl⟩ (.cons ⟨.info, rfl⟩ .nil)⟩
  listRelations _ _ := ⟨_, rfl, .cons ⟨.toDict, rfl⟩ .nil⟩
  listColumns _ _ _ := ⟨_, rfl, .cons ⟨.info, rfl⟩ .nil⟩
  listIndexes _ _ _ := ⟨_, rfl, .cons ⟨.info, rfl⟩ .nil⟩
  listConstraints _ _ _ := ⟨_, rfl, .nil⟩
  relationInfo s schema relation := by
    by_cases h : relation = users.name
    · have hobj : smallMethods.relationInfo s schema relation =
          .ok (Form.object .info (relationToDict users)) := if_pos h
      have hinfo : smallDatabase.relationInfo s schema relation = .ok users := if_pos h
      rw [hobj, hinfo]
      exact ⟨.info, rfl⟩
    · have hobj : smallMethods.relationInfo s schema relation = .error noSuchRelation := if_neg h
      have hinfo : smallDatabase.relationInfo s schema relation = .error noSuchRelation :=
        if_neg h
      rw [hobj, hinfo]
      rfl
  viewDefinition _ _ _ := rfl
  insert _ _ _ _ _ := ⟨rfl, rfl⟩

theorem pyDatabase_eq_bridged_small :
    newPyDatabase (fun _ _ => ⟨[], "TypeError".toList⟩) (fun _ => []) (fun n : Nat => .ok n)
        smallMethods = .ok (smallDatabase.bridged (fun _ => []) fun n : Nat => .ok n) ∧
      ∀ err : PyException, dbErrorToPyerr (pyerrToDbError err) = ⟨err.bridged, err.text⟩ :=
  pyDatabase_eq_bridged _ _ _ smallMethods smallDatabase smallMethods_serves

end FsspecDb.Bridge.Backend
