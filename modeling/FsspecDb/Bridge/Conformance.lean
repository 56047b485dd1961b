import FsspecDb.Bridge.Direct
import FsspecDb.Path.Canonical

/-!
# One database through the bridge and through the direct adapter

Where both parsers read a path alike, the two adapters list it, describe it and take it as the
target of a write in the same cases. Their dictionaries have the same names, types and fields,
and an exception of the database comes out as itself or as what the bridge makes of it.
-/

namespace FsspecDb.Python
open Text Ddl Bridge Bridge.Backend Checked

/-! ### Dictionaries of entries -/

theorem fileInfoToDict_size (info : FileInfo) :
    (fileInfoToDict info).lookup "size".toList = some (.int info.size) := by
  rw [fileInfoToDict, foldl_extra_reserved _ _ _ (by decide)]
  rw [AList.lookup_insert_ne (by decide), AList.lookup_insert]

theorem fileInfoToDict_type (info : FileInfo) :
    (fileInfoToDict info).lookup "type".toList = some (.str (typeStr info.fileType)) := by
  rw [fileInfoToDict, foldl_extra_reserved _ _ _ (by decide), AList.lookup_insert]

theorem holds_subset {dict : Dict} {fields fields' : List Bridge.Field} (h : Holds dict fields)
    (hsub : fields' ⊆ fields) : Holds dict fields' := fun field hfield => h field (hsub hfield)

theorem shows_of_holds (info : FileInfo) (entry : Entry) (hname : info.name = entry.name)
    (hsize : info.size = entry.size) (htype : info.fileType = entry.fileType)
    (hextra : Holds (fileInfoToDict info) entry.extra) : Shows (fileInfoToDict info) entry := by
  intro field hfield
  simp only [Entry.items, List.mem_cons] at hfield
  rcases hfield with rfl | rfl | rfl | hfield
  · rw [fileInfoToDict_name, hname]
  · rw [fileInfoToDict_size, hsize]
  · rw [fileInfoToDict_type, htype]
  · exact hextra field hfield

theorem holds_nil (dict : Dict) : Holds dict [] := fun _ hfield => absurd hfield List.not_mem_nil

theorem insertSome_size (info : FileInfo) (key : Str) (value : Option Str) :
    (info.insertSome key value).size = info.size := by
  cases value <;> rfl

theorem shows_schema (schema : SchemaInfo) :
    Shows (fileInfoToDict (Fs.schemaInfo schema)) (schemaInfo schema) := by
  let texts : List (Str × Option Str) := [("kind".toList, some "schema".toList),
    ("catalog".toList, schema.catalog), ("comment".toList, schema.comment)]
  have hread : Holds (fileInfoToDict (Fs.schemaInfo schema)) (readBack texts) :=
    withTexts_holds (.directory _) texts rfl
      (by simp only [texts, List.map_cons, List.map_nil]; decide)
      (by simp only [texts, List.map_cons, List.map_nil]; decide)
  refine shows_of_holds _ _ (by simp [Fs.schemaInfo, schemaInfo, FileInfo.directory, directory,
    DbPath.schemaPath]) ?_ (by simp [Fs.schemaInfo, schemaInfo, FileInfo.directory, directory])
    (holds_subset hread ?_)
  · rw [Fs.schemaInfo, insertSome_size, insertSome_size]
    rfl
  · have hcatalog : ∀ text, extraValue "catalog".toList text = .str text := fun _ => rfl
    have hcomment : ∀ text, extraValue "comment".toList text = .str text := fun _ => rfl
    simp only [schemaInfo, directory, readBack, texts, List.map_cons, List.map_nil,
      List.cons_subset, List.mem_cons, Prod.mk.injEq, List.nil_subset, and_true,
      funext hcatalog, funext hcomment, true_or, or_true]

theorem shows_relation (schema : Str) (relation : RelationInfo) :
    Shows (fileInfoToDict (Fs.relationInfo schema relation)) (relationInfo schema relation) := by
  refine shows_of_holds _ _ (by simp [Fs.relationInfo, relationInfo, FileInfo.directory,
    directory, DbPath.relationPath]) ?_ (by simp [Fs.relationInfo, relationInfo,
    FileInfo.directory, directory]) (relationInfo_holds schema relation)
  rw [Fs.relationInfo, insertSome_size, insertSome_size, insertSome_size]
  rfl

section
variable (schema relation : Str)

theorem shows_column (column : ColumnInfo) :
    Shows (fileInfoToDict (Fs.columnInfo schema relation column))
      (columnEntry ('/' :: schema ++ '/' :: relation ++ '/' :: DbFacet.Columns.asStr) column) := by
  refine shows_of_holds _ _ (by simp [Fs.columnInfo, columnEntry, FileInfo.file, file,
    DbPath.facetItemPath]) ?_ (by simp [Fs.columnInfo, columnEntry, FileInfo.file, file])
    (holds_subset (columnInfo_holds schema relation column) ?_)
  · rw [Fs.columnInfo, insertSome_size, insertSome_size]
    rfl
  · simp only [columnEntry, file, columnFields, List.cons_subset, List.mem_cons, true_or, or_true,
      List.nil_subset, and_true]

theorem shows_index (index : IndexInfo) (hfree : CommaFree index.columns) :
    Shows (fileInfoToDict (Fs.indexInfo schema relation index))
      (indexEntry ('/' :: schema ++ '/' :: relation ++ '/' :: DbFacet.Indexes.asStr) index) := by
  refine shows_of_holds _ _ (by simp [Fs.indexInfo, indexEntry, FileInfo.file, file,
    DbPath.facetItemPath]) ?_ (by simp [Fs.indexInfo, indexEntry, FileInfo.file, file])
    (holds_subset ((indexInfo_holds_iff schema relation index).mpr hfree) ?_)
  · rw [Fs.indexInfo, insertSome_size]
    rfl
  · simp only [indexEntry, file, indexFields, List.cons_subset, List.mem_cons, true_or, or_true,
      List.nil_subset, and_true]

theorem shows_constraint (constraint : ConstraintInfo) (hfree : CommaFree constraint.columns) :
    Shows (fileInfoToDict (Fs.constraintInfo schema relation constraint))
      (constraintEntry ('/' :: schema ++ '/' :: relation ++ '/' :: DbFacet.Constraints.asStr)
        constraint) := by
  refine shows_of_holds _ _ (by simp [Fs.constraintInfo, constraintEntry, FileInfo.file, file,
    DbPath.facetItemPath]) ?_ (by simp [Fs.constraintInfo, constraintEntry, FileInfo.file, file])
    ((constraintInfo_holds_iff schema relation constraint).mpr hfree)
  rw [Fs.constraintInfo, insertSome_size, insertSome_size]
  rfl

theorem shows_facetDir (facet : DbFacet) :
    Shows (fileInfoToDict (Fs.facetDir schema relation facet))
    (directory ('/' :: schema ++ '/' :: relation ++ '/' :: facet.asStr) []) :=
  shows_of_holds _ _ rfl rfl rfl (holds_nil _)

theorem shows_definition (size : Nat) :
    Shows (fileInfoToDict (Fs.viewDefinitionFile schema relation size))
      (file ('/' :: schema ++ '/' :: relation ++ "/definition.sql".toList) size []) :=
  shows_of_holds _ _ rfl rfl rfl (holds_nil _)

end

/-! ### Steps that both take -/

def ShowsInfo (info : FileInfo) (entry : Entry) : Prop := Shows (fileInfoToDict info) entry

def SameDbError (err : DbError) (raised : Raised) : Prop :=
  SameError (Fs.dbErrorToPyerr err) raised

theorem raised_related {α : Type} (result : Except PyException α) :
    Related SameDbError (fun a b => a = b) (mapPy result) (raised result) :=
  Related.of_mapError result _ _ fun err => dbErrorToPyerr_pyerrToDbError err

theorem raised_ok {α : Type} {result : Except PyException α} {a : α}
    (h : raised result = .ok a) : result = .ok a := by
  cases result with
  | error err => exact absurd h (by simp [raised, Except.mapError])
  | ok b => exact congrArg Except.ok (Except.ok.inj h)

theorem listing_related {α : Type} (result : Except PyException (List α)) (info : α → FileInfo)
    (entry : α → Entry)
    (hshows : ∀ values, result = .ok values → ∀ x ∈ values, ShowsInfo (info x) (entry x)) :
    Related SameDbError (List.Forall₂ ShowsInfo)
      (mapPy result >>= fun values => .ok (values.map info))
      (raised result >>= fun values => .ok (values.map entry)) := by
  apply (raised_related result).map
  intro values values' _ hvalues heq
  subst heq
  rw [List.forall₂_map_left_iff, List.forall₂_map_right_iff, List.forall₂_same]
  exact hshows values (raised_ok hvalues)

theorem classify_error (path : Str) (parts : List Str) (query : List (Str × Str)) (err : DbError)
    (h : DbPath.classify path parts query = .error err) : ∃ msg, err = .InvalidArgument msg := by
  unfold DbPath.classify at h
  split at h
  · simp at h
  · split at h <;> simp at h
  · split at h
    · simp at h
    · split at h
      · simp at h
      · exact ⟨_, (Except.error.inj h).symm⟩
  · split at h
    · simp at h
    · exact ⟨_, (Except.error.inj h).symm⟩
  · exact ⟨_, (Except.error.inj h).symm⟩

theorem parse_error (path : Str) (err : DbError) (h : DbPath.parse path = .error err) :
    ∃ msg, err = .InvalidArgument msg := by
  rw [DbPath.parse] at h
  dsimp only at h
  split at h
  · simp at h
  · exact classify_error path _ _ err h

theorem classifyParts_error (path : Str) (parts : List Str) (query : List (Str × Str))
    (err : PyError) (h : classifyParts path parts query = .error err) :
    ∃ msg, err = .ValueError msg := by
  unfold classifyParts at h
  split at h
  · simp at h
  · split at h <;> simp at h
  · split at h
    · simp at h
    · split at h
      · simp at h
      · exact ⟨_, (Except.error.inj h).symm⟩
  · split at h
    · simp at h
    · exact ⟨_, (Except.error.inj h).symm⟩
  · exact ⟨_, (Except.error.inj h).symm⟩

theorem parsePath_error (netlocError : Str → Option Str) (path : Str) (err : PyError)
    (h : parsePath netlocError path = .error err) : ∃ msg, err = .ValueError msg := by
  unfold parsePath at h
  split at h
  · next hurl =>
    rw [← Except.error.inj h]
    unfold urlsplit at hurl
    dsimp only at hurl
    split at hurl
    · exact ⟨_, (Except.error.inj hurl).symm⟩
    · simp at hurl
  · dsimp only at h
    split at h
    · simp at h
    · exact classifyParts_error path _ _ err h

theorem parse_related (netlocError : Str → Option Str) (path : Str)
    (h : ParsersAgree netlocError path) :
    Related SameDbError (fun parsed parsed' => parsed' = DbPath.asPython parsed)
      (DbPath.parse path) (parse netlocError path) := by
  rw [ParsersAgree] at h
  rw [parse]
  cases hnative : DbPath.parse path with
  | error err =>
    cases hpython : parsePath netlocError path with
    | error err' =>
      obtain ⟨msg, rfl⟩ := parse_error path err hnative
      exact .error _ _ ⟨parsePath_error netlocError path err' hpython, rfl⟩
    | ok parsed => simp [hnative, hpython, Except.toOption] at h
  | ok parsed =>
    cases hpython : parsePath netlocError path with
    | error err => simp [hnative, hpython, Except.toOption] at h
    | ok parsed' =>
      simp only [hnative, hpython, Except.toOption, Option.map_some, Option.some.injEq] at h
      exact .ok _ _ h.symm

/-! ### Items of a facet -/

theorem getLast?_splitOn (name : Str) : (name.splitOn '/').getLast? = some (lastPart name) := by
  rw [lastPart]
  cases hcut : rsplitOnce name '/' with
  | none =>
    rw [List.splitOn_eq_singleton ((rsplitOnce_eq_none_iff name '/').mp hcut)]
    rfl
  | some p =>
    obtain ⟨hname, hafter⟩ := (rsplitOnce_eq_some_iff name p.1 p.2 '/').mp hcut
    obtain ⟨first, pieces, hpieces⟩ := splitOn_append p.1 p.2 '/'
    rw [hname, hpieces, List.splitOn_eq_singleton hafter, List.getLast?_concat]
    rfl

theorem lastPart_append (before after : Str) :
    lastPart (before ++ '/' :: after) = lastPart after := by
  obtain ⟨first, pieces, hpieces⟩ := splitOn_append before after '/'
  have hlast := getLast?_splitOn (before ++ '/' :: after)
  rw [hpieces, List.getLast?_append, getLast?_splitOn after, Option.some_or] at hlast
  exact (Option.some.inj hlast).symm

section
variable {σ Stream Table : Type} (viewDependencies dependencies : Str → List Str)
  (toTable : Stream → Except DbError Table) (db : AbstractDatabase σ Table) (s : σ)

/-- No two items of a facet have the same name behind the last slash, and no column of an index
or a constraint has a comma in its name. -/
structure Tidy : Prop where
  columns : ∀ schema relation columns, db.listColumns s schema relation = .ok columns →
    (columns.map fun column => lastPart column.name).Nodup
  indexes : ∀ schema relation indexes, db.listIndexes s schema relation = .ok indexes →
    (indexes.map fun index => lastPart index.name).Nodup ∧
      ∀ index ∈ indexes, CommaFree index.columns
  constraints : ∀ schema relation constraints,
    db.listConstraints s schema relation = .ok constraints →
    (constraints.map fun constraint => lastPart constraint.name).Nodup ∧
      ∀ constraint ∈ constraints, CommaFree constraint.columns

theorem listing_nodup {α : Type} (result : Except PyException (List α)) (entry : α → Entry)
    (name : α → Str) (base : Str) (entries : List Entry)
    (hentry : ∀ x, (entry x).name = base ++ '/' :: name x)
    (hnames : ∀ values, result = .ok values → (values.map fun x => lastPart (name x)).Nodup)
    (h : (raised result >>= fun values => .ok (values.map entry)) = .ok entries) :
    (entries.map fun entry => lastPart entry.name).Nodup := by
  obtain ⟨values, hvalues, heq⟩ := bind_eq_ok_iff.mp h
  rw [← Except.ok.inj heq, List.map_map]
  have hsame : (fun entry : Entry => lastPart entry.name) ∘ entry = fun x => lastPart (name x) := by
    funext x
    rw [Function.comp_apply, hentry, lastPart_append]
  rw [hsame]
  exact hnames values (raised_ok hvalues)

section
variable (htidy : Tidy db s) (schema relation : Str) (facet : DbFacet) (item : Option Str)
  (query : List (Str × Str)) (hfacet : facet ≠ .DependsOn)
include htidy hfacet

theorem facetEntries_nodup (entries : List Entry)
    (h : facetEntries dependencies db s
      (DbPath.asPython ⟨some schema, some relation, .Facet facet item, query⟩) = .ok entries) :
    (entries.map fun entry => lastPart entry.name).Nodup := by
  cases facet with
  | Columns =>
    exact listing_nodup _ (columnEntry _) ColumnInfo.name
      ('/' :: schema ++ '/' :: relation ++ '/' :: DbFacet.Columns.asStr) entries (fun _ => rfl)
      (htidy.columns schema relation) h
  | Indexes =>
    exact listing_nodup _ (indexEntry _) IndexInfo.name
      ('/' :: schema ++ '/' :: relation ++ '/' :: DbFacet.Indexes.asStr) entries (fun _ => rfl)
      (fun indexes hlist => (htidy.indexes schema relation indexes hlist).1) h
  | Constraints =>
    exact listing_nodup _ (constraintEntry _) ConstraintInfo.name
      ('/' :: schema ++ '/' :: relation ++ '/' :: DbFacet.Constraints.asStr) entries
      (fun _ => rfl)
      (fun constraints hlist => (htidy.constraints schema relation constraints hlist).1) h
  | DependsOn => exact absurd rfl hfacet

theorem facetEntries_related :
    Related SameDbError (List.Forall₂ ShowsInfo)
      (Fs.facetEntries (db.bridged viewDependencies toTable) s schema relation facet)
      (raised (db.relationInfo s schema relation) >>= fun _ => facetEntries dependencies db s
        (DbPath.asPython ⟨some schema, some relation, .Facet facet item, query⟩)) := by
  refine (raised_related (db.relationInfo s schema relation)).bind ?_
  intro _ _ _ _ _
  cases facet with
  | Columns =>
    exact listing_related (db.listColumns s schema relation) (Fs.columnInfo schema relation)
      (columnEntry _) fun _ _ column _ => shows_column schema relation column
  | Indexes =>
    exact listing_related (db.listIndexes s schema relation) (Fs.indexInfo schema relation)
      (indexEntry _) fun indexes hlist index hindex => shows_index schema relation index
        ((htidy.indexes schema relation indexes hlist).2 index hindex)
  | Constraints =>
    exact listing_related (db.listConstraints s schema relation)
      (Fs.constraintInfo schema relation) (constraintEntry _)
      fun constraints hlist constraint hmem => shows_constraint schema relation constraint
        ((htidy.constraints schema relation constraints hlist).2 constraint hmem)
  | DependsOn => exact absurd rfl hfacet

end

end

end FsspecDb.Python
