import FsspecDb.Sqlite.Namespace

/-!
# Walking a SQLite connection

What a walk over the filesystem makes of the catalog.
-/

namespace FsspecDb.Sqlite.Catalog
open Text Sql Fs Constraints

/-! ### The listings of the database -/

theorem mem_visible (attached : Attached) (relation : SqliteRelation) :
    relation ∈ visible attached ↔ relation ∈ attached.relations ∧ ¬ Hidden relation.name := by
  rw [visible, (List.mergeSort_perm ..).mem_iff, List.mem_filter, decide_eq_true_eq]

theorem name_of_declaredRelation (viewDependencies : Str → List Str) (schema' schema relation : Str)
    (row : SqliteRelation)
    (h : .relationPath schema relation ∈ declaredRelation viewDependencies schema' row) :
    relation = row.name := by
  rcases List.mem_cons.mp h with h | h
  · exact (BuilderCall.relationPath.inj h).2
  · rcases List.mem_append.mp h with h | h
    · obtain ⟨facet, _, h⟩ := List.mem_flatMap.mp h
      rcases List.mem_cons.mp h with h | h
      · cases h
      · obtain ⟨item, _, h⟩ := List.mem_map.mp h
        cases h
    · split at h
      · cases List.mem_singleton.mp h
      · cases h

theorem not_hidden (viewDependencies : Str → List Str) (c : Connection) (schema relation : Str)
    (h : .relationPath schema relation ∈ declared viewDependencies c) : ¬ Hidden relation := by
  obtain ⟨attached, _, h⟩ := List.mem_flatMap.mp h
  rcases List.mem_cons.mp h with h | h
  · cases h
  · obtain ⟨row, hrow, h⟩ := List.mem_flatMap.mp h
    rw [name_of_declaredRelation viewDependencies attached.name schema relation row h]
    exact ((mem_visible attached row).mp hrow).2

theorem visible_nodup (attached : Attached) : ((visible attached).map (·.name)).Nodup := by
  rw [visible, ((List.mergeSort_perm ..).map _).nodup_iff]
  exact (relations_nodup attached).sublist (List.filter_sublist.map _)

section
variable {Stream : Type} (unknownDatabase : Str → DbError) (nullName : DbError)
  (viewDependencies : Str → List Str)
  (insert : Connection → Str → Str → Stream → InsertMode → Except DbError UInt64 × Connection)
  (c : Connection) (hplain : Plain viewDependencies c)

theorem listRelations_ok (schema : Str) (relations : List RelationInfo)
    (h : listRelationsAsync c unknownDatabase schema = .ok relations) :
    ∃ attached, c.attached unknownDatabase schema = .ok attached ∧
      relations = (visible attached).map fun relation =>
        ⟨relation.name, relation.kind, none, none, none⟩ := by
  obtain ⟨attached, hattached, h⟩ := Checked.bind_eq_ok_iff.mp h
  exact ⟨attached, hattached, (Except.ok.inj h).symm⟩

include hplain

theorem itemNames_eq (schema relation : Str) (row : SqliteRelation)
    (hrow : c.relation unknownDatabase schema relation = .ok row) (facet : DbFacet)
    (hfacet : facet ∈ facetsOf row.kind) :
    itemNames (sqliteDatabase unknownDatabase nullName viewDependencies insert) c schema relation
        facet =
      declaredItems viewDependencies schema row facet := by
  obtain ⟨hrelation, hname⟩ :=
    row_plain c unknownDatabase viewDependencies hplain schema relation row hrow
  cases facet with
  | Columns =>
    have hcolumns : (tableColumns row.table.tableInfo).map (·.name) =
        row.table.columns.map (·.name) := by
      rw [tableColumns, SqliteTable.tableInfo, List.map_map, List.map_map,
        ← List.zipIdx_map_fst 0 row.table.columns, List.map_map, List.zipIdx_map_fst]
      rfl
    simp only [itemNames, sqliteDatabase,
      listColumnsAsync_eq c unknownDatabase viewDependencies hplain schema relation row hrow]
    exact hcolumns
  | Indexes =>
    simp only [itemNames, sqliteDatabase,
      listIndexes_eq c unknownDatabase nullName viewDependencies hplain schema relation row hrow]
    refine indexNames_eq nullName row fun index hindex => ?_
    exact quoteIdentifier_ok .Sqlite _ ⟨hrelation.indexes.2 _ (List.mem_map_of_mem hindex),
      hrelation.indexNuls index hindex⟩
  | Constraints =>
    obtain ⟨report, hreport, hnames⟩ := listConstraints_names c unknownDatabase viewDependencies
      hplain schema relation row hrow
    simp only [itemNames, sqliteDatabase, hreport]
    exact hnames
  | DependsOn =>
    have hkind : row.kind = .View := by
      by_contra hkind
      simp [facetsOf, hkind] at hfacet
    simp only [itemNames, references, sqliteDatabase,
      viewDefinition_eq c unknownDatabase viewDependencies hplain schema relation row hrow hkind,
      declaredItems, viewReferences, hname]
    rfl

theorem visible_row (attached : Attached) (hattached : attached ∈ c.schemas)
    (relation : SqliteRelation) (hrelation : relation ∈ attached.relations) :
    c.relation unknownDatabase attached.name relation.name = .ok relation :=
  (relation_ok_iff c unknownDatabase attached.name relation.name relation).mpr
    ⟨attached, attached_of_mem c unknownDatabase attached hattached
      (hplain.schemas attached hattached), hrelation, rfl⟩

theorem relationCalls_eq (attached : Attached) (hattached : attached ∈ c.schemas)
    (relation : SqliteRelation) (hrelation : relation ∈ attached.relations) :
    relationCalls (sqliteDatabase unknownDatabase nullName viewDependencies insert) c
        attached.name ⟨relation.name, relation.kind, none, none, none⟩ =
      declaredRelation viewDependencies attached.name relation := by
  rw [relationCalls, declaredRelation]
  congr 2
  apply List.flatMap_congr
  intro facet hfacet
  rw [facetCalls, itemNames_eq unknownDatabase nullName viewDependencies insert c hplain
    attached.name relation.name relation
    (visible_row unknownDatabase viewDependencies c hplain attached hattached relation hrelation)
    facet hfacet]

theorem inventory_eq :
    inventory (sqliteDatabase unknownDatabase nullName viewDependencies insert) c =
      declared viewDependencies c := by
  have hschemas : answered ((sqliteDatabase unknownDatabase nullName viewDependencies
      insert).listSchemas c) = listSchemas c := rfl
  rw [inventory, hschemas, listSchemas, List.flatMap_map, declared]
  apply List.flatMap_congr
  intro attached hattached
  have hrelations : (sqliteDatabase unknownDatabase nullName viewDependencies
      insert).listRelations c attached.name = .ok ((visible attached).map fun relation =>
        ⟨relation.name, relation.kind, none, none, none⟩) :=
    Checked.bind_eq_ok_iff.mpr ⟨attached, attached_of_mem c unknownDatabase attached hattached
      (hplain.schemas attached hattached), rfl⟩
  rw [schemaCalls, hrelations]
  congr 1
  change ((visible attached).map _).flatMap _ = _
  rw [List.flatMap_map]
  apply List.flatMap_congr
  intro relation hrelation
  exact relationCalls_eq unknownDatabase nullName viewDependencies insert c hplain attached
    hattached relation ((mem_visible attached relation).mp hrelation).1

/-! ### Its names stand in paths -/

theorem visible_ok (attached : Attached) (hattached : attached ∈ c.schemas) :
    NamesOk ((visible attached).map (·.name)) := by
  refine ⟨visible_nodup attached, fun name hname => ?_⟩
  obtain ⟨relation, hrelation, rfl⟩ := List.mem_map.mp hname
  exact (hplain.relations attached hattached relation
    ((mem_visible attached relation).mp hrelation).1).name.1

theorem schemas_ok : NamesOk ((listSchemas c).map (·.name)) := by
  rw [listSchemas, List.map_map]
  constructor
  · have hnodup := c.schemas_nodup
    have hlower : (c.schemas.map fun attached => toAsciiLowercase attached.name) =
        (c.schemas.map (·.name)).map toAsciiLowercase := by
      rw [List.map_map]
      rfl
    rw [hlower] at hnodup
    exact hnodup.of_map _
  · intro name hname
    obtain ⟨attached, hattached, rfl⟩ := List.mem_map.mp hname
    exact (hplain.schemas attached hattached).1

theorem sqlite_walkable :
    Walkable (sqliteDatabase unknownDatabase nullName viewDependencies insert) c where
  schemas schemas h := by
    rw [← Except.ok.inj h]
    exact schemas_ok viewDependencies c hplain
  relations schema relations h := by
    obtain ⟨attached, hattached, rfl⟩ := listRelations_ok unknownDatabase c schema relations h
    rw [List.map_map]
    exact visible_ok viewDependencies c hplain attached
      (attached_ok c unknownDatabase schema attached hattached).1
  columns schema relation columns h := by
    obtain ⟨info, hinfo, _⟩ := Checked.bind_eq_ok_iff.mp h
    obtain ⟨row, hrow, _⟩ := relation_of_info c unknownDatabase schema relation info hinfo
    obtain ⟨hrelation, _⟩ :=
      row_plain c unknownDatabase viewDependencies hplain schema relation row hrow
    have hnames := itemNames_eq unknownDatabase nullName viewDependencies insert c hplain schema
      relation row hrow .Columns (by simp [facetsOf])
    rw [itemNames, h] at hnames
    change columns.map _ = row.table.columns.map _ at hnames
    rw [hnames]
    refine ⟨row.table.columns_nodup, fun name hname => ?_⟩
    obtain ⟨column, hcolumn, rfl⟩ := List.mem_map.mp hname
    exact hrelation.columns column hcolumn
  indexes schema relation indexes h := by
    obtain ⟨info, hinfo, _⟩ := Checked.bind_eq_ok_iff.mp h
    obtain ⟨row, hrow, _⟩ := relation_of_info c unknownDatabase schema relation info hinfo
    obtain ⟨hrelation, _⟩ :=
      row_plain c unknownDatabase viewDependencies hplain schema relation row hrow
    have hnames := itemNames_eq unknownDatabase nullName viewDependencies insert c hplain schema
      relation row hrow .Indexes (by simp [facetsOf])
    rw [itemNames, h] at hnames
    change indexes.map _ = indexNames row at hnames
    rw [hnames, indexNames]
    split
    · exact hrelation.indexes
    · exact ⟨List.nodup_nil, fun name hname => by cases hname⟩
  constraints schema relation constraints h := by
    obtain ⟨info, hinfo, _⟩ := Checked.bind_eq_ok_iff.mp h
    obtain ⟨row, hrow, _⟩ := relation_of_info c unknownDatabase schema relation info hinfo
    obtain ⟨hrelation, _⟩ :=
      row_plain c unknownDatabase viewDependencies hplain schema relation row hrow
    obtain ⟨report, hreport, hnames⟩ := listConstraints_names c unknownDatabase viewDependencies
      hplain schema relation row hrow
    obtain rfl := Except.ok.inj (hreport.symm.trans h)
    rw [hnames]
    exact constraintNames_ok row.table hrelation.name.1
  relationInfo schema relations h relation hrelation := by
    obtain ⟨attached, hattached, rfl⟩ := listRelations_ok unknownDatabase c schema relations h
    obtain ⟨row, hrow, rfl⟩ := List.mem_map.mp hrelation
    have hrow := (relation_ok_iff c unknownDatabase schema row.name row).mpr
      ⟨attached, hattached, ((mem_visible attached row).mp hrow).1, rfl⟩
    exact ⟨_, relationInfoAsync_eq c unknownDatabase viewDependencies hplain schema row.name row
      hrow, rfl, rfl⟩

theorem sqlite_suffixless :
    Suffixless (sqliteDatabase unknownDatabase nullName viewDependencies insert) c := by
  intro schema relations h relation hrelation
  obtain ⟨attached, hattached, rfl⟩ := listRelations_ok unknownDatabase c schema relations h
  obtain ⟨row, hrow, rfl⟩ := List.mem_map.mp hrelation
  exact (hplain.relations attached (attached_ok c unknownDatabase schema attached hattached).1 row
    ((mem_visible attached row).mp hrow).1).suffix

theorem sqlite_distinguished :
    Distinguished (sqliteDatabase unknownDatabase nullName viewDependencies insert) c := by
  intro schema relation
  cases hdefinition : viewDefinition c unknownDatabase schema relation with
  | error err =>
    have hnone : itemNames (sqliteDatabase unknownDatabase nullName viewDependencies insert) c
        schema relation .DependsOn = [] := by
      simp only [itemNames, references, sqliteDatabase, hdefinition]
      rfl
    rw [hnone]
    exact ⟨List.nodup_nil, fun name hname => by cases hname⟩
  | ok definition =>
    obtain ⟨info, hinfo, h⟩ := Checked.bind_eq_ok_iff.mp hdefinition
    obtain ⟨row, hrow, _, hkind⟩ := relation_of_info c unknownDatabase schema relation info hinfo
    obtain ⟨hrelation, _⟩ :=
      row_plain c unknownDatabase viewDependencies hplain schema relation row hrow
    have hview : row.kind = .View := by
      by_contra hview
      rw [if_pos (hkind ▸ hview)] at h
      cases h
    rw [itemNames_eq unknownDatabase nullName viewDependencies insert c hplain schema relation row
      hrow .DependsOn (by simp [facetsOf, hview])]
    exact hrelation.references schema

end

/- A table whose index on an expression keeps its other index from the listing, the table that
SQLite makes for `AUTOINCREMENT`, and a view. -/
def usersTable : SqliteTable where
  name := "users".toList
  columns := [⟨"id".toList, "INTEGER".toList, true, none⟩,
    ⟨"name".toList, "TEXT".toList, false, none⟩]
  primaryKey := ["id".toList]
  foreignKeys := []
  uniques := []
  columns_nodup := by decide
  primaryKey_nodup := by decide
  primaryKey_columns := by decide

def plainTable (name : Str) : SqliteTable where
  name := name
  columns := [⟨"name".toList, "TEXT".toList, false, none⟩]
  primaryKey := []
  foreignKeys := []
  uniques := []
  columns_nodup := by decide
  primaryKey_nodup := by decide
  primaryKey_columns := by decide

def smallRelations : List SqliteRelation :=
  [⟨usersTable, .Table, [], .ok 2,
      [⟨"byName".toList, false, [some "name".toList]⟩, ⟨"byLower".toList, false, [none]⟩]⟩,
    ⟨plainTable "sqlite_sequence".toList, .Table, [], .ok 1, []⟩,
    ⟨plainTable "names".toList, .View, "CREATE VIEW names AS SELECT name FROM users".toList,
      .ok 0, []⟩]

def smallAttached : Attached where
  schema := {
    name := "main".toList
    tables := smallRelations.map (·.table)
    foreignKeyList := fun _ => []
    tables_nodup := by decide
    foreignKeyList_rows := by
      intro table htable
      simp only [smallRelations, List.map_cons, List.map_nil, List.mem_cons, List.not_mem_nil,
        or_false] at htable
      rcases htable with rfl | rfl | rfl <;> exact List.Perm.refl _ }
  relations := smallRelations
  tables := rfl

def smallConnection : Connection := ⟨[smallAttached], List.nodup_singleton _⟩

theorem smallConnection_plain : Plain (fun _ => ["users".toList]) smallConnection where
  schemas := by
    intro attached hattached
    rw [List.mem_singleton.mp hattached]
    decide
  relations := by
    intro attached hattached relation hrelation
    rw [List.mem_singleton.mp hattached] at hrelation
    simp only [smallAttached, smallRelations, List.mem_cons, List.not_mem_nil, or_false]
      at hrelation
    rcases hrelation with rfl | rfl | rfl
    · exact ⟨by decide, fun format => by cases format <;> decide, fun _ => ⟨_, rfl⟩, by decide,
        by decide, by decide, fun schema => show NamesOk [] by decide⟩
    · exact ⟨by decide, fun format => by cases format <;> decide, fun _ => ⟨_, rfl⟩, by decide,
        by decide, by decide, fun schema => show NamesOk ["users".toList] by decide⟩
    · exact ⟨by decide, fun format => by cases format <;> decide, fun _ => ⟨_, rfl⟩, by decide,
        by decide, by decide, fun schema => show NamesOk ["users".toList] by decide⟩

end FsspecDb.Sqlite.Catalog
