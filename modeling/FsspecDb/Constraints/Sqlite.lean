import FsspecDb.Fs.Metadata
import FsspecDb.Lib.Grouping
import FsspecDb.Sql.Statements

/-!
# Constraints of a SQLite relation (sqlite.rs, `list_constraints`)

The rows of `PRAGMA table_info` and `PRAGMA foreign_key_list` are what SQLite documents for a
table as it was created. `list_constraints` puts the keys together again from the rows.
-/

namespace FsspecDb.Constraints
open Fs Sql

structure SqliteColumn where
  name : Str
  type : Str
  notnull : Bool
  dfltValue : Option Str

structure SqliteForeignKey where
  table : Str
  columns : List Str
  columns_ne : columns ≠ []

/- A relation as it was created, each key with its columns in the order of the key. A view has
   no keys. -/
structure SqliteTable where
  name : Str
  columns : List SqliteColumn
  primaryKey : List Str
  foreignKeys : List SqliteForeignKey
  uniques : List (Str × List Str)
  columns_nodup : (columns.map (·.name)).Nodup
  primaryKey_nodup : primaryKey.Nodup
  primaryKey_columns : ∀ name ∈ primaryKey, name ∈ columns.map (·.name)

/-! ### The PRAGMAs -/

structure TableInfoRow where
  cid : Nat
  name : Str
  type : Str
  notnull : Nat
  dfltValue : Option Str
  pk : Nat

structure ForeignKeyRow where
  id : Nat
  seq : Nat
  table : Str
  fromColumn : Str

/- `pk` is 0 outside the primary key, and the place in the key counted from 1 inside. -/
def SqliteTable.tableInfo (table : SqliteTable) : List TableInfoRow :=
  table.columns.zipIdx.map fun (column, cid) => {
    cid
    name := column.name
    type := column.type
    notnull := if column.notnull then 1 else 0
    dfltValue := column.dfltValue
    pk := (table.primaryKey.findIdx? (· = column.name)).elim 0 (· + 1) }

def SqliteForeignKey.rows (foreignKey : SqliteForeignKey) (id : Nat) : List ForeignKeyRow :=
  foreignKey.columns.zipIdx.map fun (column, seq) =>
    { id, seq, table := foreignKey.table, fromColumn := column }

def SqliteTable.foreignKeyRows (table : SqliteTable) : List ForeignKeyRow :=
  table.foreignKeys.zipIdx.flatMap fun (foreignKey, id) => foreignKey.rows id

/- A schema and its answers to `foreign_key_list`, whose rows come in any order. -/
structure SqliteSchema where
  name : Str
  tables : List SqliteTable
  foreignKeyList : Str → List ForeignKeyRow
  tables_nodup : (tables.map (·.name)).Nodup
  foreignKeyList_rows : ∀ table ∈ tables,
    (foreignKeyList table.name).Perm table.foreignKeyRows

/-! ### The code -/

def tableColumns (rows : List TableInfoRow) : List ColumnInfo :=
  rows.map fun row => {
    name := row.name
    dataType := row.type
    nullable := row.notnull = 0
    default := row.dfltValue
    ordinal := UInt32.ofNat (row.cid + 1)
    primaryKey := 0 < row.pk
    comment := none }

def primaryKeyConstraint (relation : Str) (pkColumns : List Str) : List ConstraintInfo :=
  if pkColumns = [] then []
  else [{
    name := "pk_".toList ++ relation
    kind := .PrimaryKey
    columns := pkColumns
    references := none
    expr := none }]

/- `by_id`, a `BTreeMap` read in the order of its keys. -/
def byId (rows : List ForeignKeyRow) : List (Nat × Str × List (Nat × Str)) :=
  (Grouping.group (·.id) (fun row => (row.table, []))
    (fun entry row => (entry.1, entry.2 ++ [(row.seq, row.fromColumn)])) rows).mergeSort
      fun entry entry' => entry.1 ≤ entry'.1

def sortBySeq (columns : List (Nat × Str)) : List (Nat × Str) :=
  columns.mergeSort fun column column' => column.1 ≤ column'.1

def foreignKeyConstraint (relation : Str) (entry : Nat × Str × List (Nat × Str)) :
    ConstraintInfo where
  name := "fk_".toList ++ relation ++ '_' :: natStr entry.1
  kind := .ForeignKey
  columns := (sortBySeq entry.2.2).map Prod.snd
  references := some entry.2.1
  expr := none

/- `relation_info_async` gives the error for a relation that `sqlite_master` does not have. -/
def SqliteSchema.relation (schema : SqliteSchema) (relation : Str) :
    Except DbError SqliteTable := do
  let _ ← quoteIdentifier .Sqlite schema.name
  match schema.tables.find? (·.name = relation) with
  | some table => .ok table
  | none => .error (.NotFound ("relation not found: ".toList ++ schema.name ++ '.' :: relation))

def SqliteSchema.listConstraints (schema : SqliteSchema) (relation : Str) :
    Except DbError (List ConstraintInfo) := do
  let table ← schema.relation relation
  let _ ← quoteIdentifier .Sqlite relation
  let columns := tableColumns table.tableInfo
  let pkColumns := (columns.filter (·.primaryKey)).map (·.name)
  .ok (primaryKeyConstraint relation pkColumns ++
    (byId (schema.foreignKeyList relation)).map (foreignKeyConstraint relation))

/-! ### The primary key -/

theorem pk_pos (key : List Str) (name : Str) :
    decide (0 < (key.findIdx? (· = name)).elim 0 (· + 1)) = decide (name ∈ key) := by
  apply decide_eq_decide.mpr
  cases hfind : key.findIdx? (· = name) with
  | none =>
    rw [List.findIdx?_eq_none_iff] at hfind
    have hnone : name ∉ key := fun hname => by simpa using hfind name hname
    simp [hnone]
  | some i =>
    obtain ⟨hi, heq, -⟩ := List.findIdx?_eq_some_iff_getElem.mp hfind
    have hname : name ∈ key := of_decide_eq_true heq ▸ List.getElem_mem hi
    simp [hname]

theorem pkColumns_eq (table : SqliteTable) :
    ((tableColumns table.tableInfo).filter (·.primaryKey)).map (·.name) =
      (table.columns.map (·.name)).filter fun name => name ∈ table.primaryKey := by
  have hrows : (tableColumns table.tableInfo).map (fun column => (column.name, column.primaryKey)) =
      table.columns.map fun column => (column.name, decide (column.name ∈ table.primaryKey)) := by
    apply List.ext_getElem
    · simp [tableColumns, SqliteTable.tableInfo]
    · intro j hj hj'
      simp only [tableColumns, SqliteTable.tableInfo, List.getElem_map, List.getElem_zipIdx, pk_pos]
  have hleft : ∀ columns : List ColumnInfo, (columns.filter (·.primaryKey)).map (·.name) =
      ((columns.map fun column => (column.name, column.primaryKey)).filter Prod.snd).map
        Prod.fst := by
    intro columns
    rw [List.filter_map, List.map_map]
    rfl
  rw [hleft, hrows, List.filter_map, List.filter_map, List.map_map]
  rfl

/-- The filter keeps the order of the table, so the key comes out in its own order where the
two agree. -/
theorem pkColumns_iff (table : SqliteTable) :
    ((table.columns.map (·.name)).filter fun name => name ∈ table.primaryKey) =
      table.primaryKey ↔ table.primaryKey.Sublist (table.columns.map (·.name)) := by
  constructor
  · intro h
    rw [← h]
    exact List.filter_sublist
  · intro h
    have hperm : ((table.columns.map (·.name)).filter fun name => name ∈ table.primaryKey).Perm
        table.primaryKey := by
      rw [List.perm_ext_iff_of_nodup (table.columns_nodup.filter _) table.primaryKey_nodup]
      intro name
      rw [List.mem_filter, decide_eq_true_eq]
      exact ⟨And.right, fun hname => ⟨table.primaryKey_columns name hname, hname⟩⟩
    have hself : (table.primaryKey.filter fun name => name ∈ table.primaryKey) =
        table.primaryKey :=
      List.filter_eq_self.mpr fun name hname => decide_eq_true hname
    have hsub := h.filter fun name => name ∈ table.primaryKey
    rw [hself] at hsub
    exact (hsub.eq_of_length hperm.length_eq.symm).symm

/-! ### The foreign keys -/

theorem collect_rows (rows : List ForeignKeyRow) :
    Grouping.collect (fun row : ForeignKeyRow => (row.table, ([] : List (Nat × Str))))
      (fun entry row => (entry.1, entry.2 ++ [(row.seq, row.fromColumn)])) rows =
      rows.head?.map fun row =>
        (row.table, rows.map fun row => (row.seq, row.fromColumn)) := by
  have hfold : ∀ (rows : List ForeignKeyRow) (table : Str) (columns : List (Nat × Str)),
      rows.foldl (fun entry row => (entry.1, entry.2 ++ [(row.seq, row.fromColumn)]))
        (table, columns) = (table, columns ++ rows.map fun row => (row.seq, row.fromColumn)) := by
    intro rows
    induction rows with
    | nil => simp
    | cons row rows ih =>
      intro table columns
      simp [ih]
  simp only [Grouping.collect, hfold, List.nil_append]

theorem sortBySeq_rows (foreignKey : SqliteForeignKey) (id : Nat) (rows : List ForeignKeyRow)
    (hrows : rows.Perm (foreignKey.rows id)) :
    sortBySeq (rows.map fun row => (row.seq, row.fromColumn)) =
      foreignKey.columns.zipIdx.map Prod.swap := by
  have hkey : (foreignKey.rows id).map (fun row => (row.seq, row.fromColumn)) =
      foreignKey.columns.zipIdx.map Prod.swap := by
    rw [SqliteForeignKey.rows, List.map_map]
    rfl
  apply Grouping.mergeSort_eq Prod.fst
  · rw [← hkey]
    exact hrows.map _
  · exact Grouping.zipIdx_strict _ 0 _ _ fun _ => rfl

theorem rows_ne (foreignKey : SqliteForeignKey) (id : Nat) : foreignKey.rows id ≠ [] := by
  simp [SqliteForeignKey.rows, foreignKey.columns_ne]

theorem rows_table (foreignKey : SqliteForeignKey) (id : Nat) (row : ForeignKeyRow)
    (h : row ∈ foreignKey.rows id) : row.id = id ∧ row.table = foreignKey.table := by
  obtain ⟨_, _, rfl⟩ := List.mem_map.mp h
  exact ⟨rfl, rfl⟩

theorem foreignKeyRows_filter (table : SqliteTable) (id : Nat) :
    table.foreignKeyRows.filter (fun row => row.id = id) =
      (table.foreignKeys[id]?.map fun foreignKey => foreignKey.rows id).getD [] := by
  have hrows (foreignKey : SqliteForeignKey) (id' : Nat) :
      (foreignKey.rows id').filter (fun row => row.id = id) =
        if id' = id then foreignKey.rows id' else [] :=
    Grouping.filter_const _ _ (id' = id) fun row hrow => by
      rw [(rows_table foreignKey id' row hrow).1]
  rw [SqliteTable.foreignKeyRows, List.filter_flatMap]
  simp only [hrows]
  cases hget : table.foreignKeys[id]? with
  | none =>
    apply List.flatMap_eq_nil_iff.mpr
    intro entry hentry
    rw [List.mem_zipIdx_iff_getElem?] at hentry
    rw [if_neg]
    rintro rfl
    rw [hget] at hentry
    simp at hentry
  | some foreignKey =>
    have hmem : (foreignKey, id) ∈ table.foreignKeys.zipIdx :=
      List.mem_zipIdx_iff_getElem?.mpr hget
    have hnodup : table.foreignKeys.zipIdx.Nodup := by
      apply List.Nodup.of_map Prod.snd
      rw [List.zipIdx_map_snd]
      exact List.nodup_range'
    rw [Grouping.flatMap_single _ hnodup _ (foreignKey, id) hmem]
    · simp
    · intro entry hentry hne
      rw [if_neg]
      intro heq
      rw [List.mem_zipIdx_iff_getElem?, heq, hget] at hentry
      exact hne (Prod.ext (Option.some.inj hentry).symm heq)

/-- What the rows of one id give is the foreign key with that id. -/
theorem collect_id (table : SqliteTable) (rows : List ForeignKeyRow)
    (hrows : rows.Perm table.foreignKeyRows) (id : Nat) :
    (Grouping.collect (fun row : ForeignKeyRow => (row.table, ([] : List (Nat × Str))))
      (fun entry row => (entry.1, entry.2 ++ [(row.seq, row.fromColumn)]))
      (rows.filter fun row => row.id = id)).map (fun entry => (entry.1, sortBySeq entry.2)) =
      table.foreignKeys[id]?.map fun foreignKey =>
        (foreignKey.table, foreignKey.columns.zipIdx.map Prod.swap) := by
  have hfilter := hrows.filter fun row => row.id = id
  rw [foreignKeyRows_filter] at hfilter
  rw [collect_rows]
  cases hget : table.foreignKeys[id]? with
  | none =>
    rw [hget] at hfilter
    rw [List.perm_nil.mp hfilter]
    rfl
  | some foreignKey =>
    rw [hget] at hfilter
    have hsort := sortBySeq_rows foreignKey id _ hfilter
    cases hown : rows.filter fun row => row.id = id with
    | nil =>
      rw [hown] at hfilter
      exact absurd (List.nil_perm.mp hfilter) (rows_ne foreignKey id)
    | cons row rest =>
      rw [hown] at hfilter hsort
      have htable := (rows_table foreignKey id row (hfilter.mem_iff.mp (by simp))).2
      simp only [List.head?_cons, Option.map_some, hsort, htable]

theorem mem_byId (table : SqliteTable) (rows : List ForeignKeyRow)
    (hrows : rows.Perm table.foreignKeyRows) (id : Nat) (parent : Str)
    (columns : List (Nat × Str)) :
    (id, parent, columns) ∈
        (byId rows).map (fun entry => (entry.1, entry.2.1, sortBySeq entry.2.2)) ↔
      table.foreignKeys[id]?.map (fun foreignKey =>
        (foreignKey.table, foreignKey.columns.zipIdx.map Prod.swap)) = some (parent, columns) := by
  have hbyId : (byId rows).Perm _ := List.mergeSort_perm _ _
  rw [← collect_id table rows hrows id, Option.map_eq_some_iff]
  constructor
  · intro hentry
    obtain ⟨⟨id', entry⟩, hmem, heq⟩ := List.mem_map.mp hentry
    obtain ⟨rfl, hvalue⟩ := Prod.mk.inj heq
    exact ⟨entry, (Grouping.mem_group ..).mp (hbyId.mem_iff.mp hmem), hvalue⟩
  · rintro ⟨entry, hcollect, hvalue⟩
    have hmem := hbyId.mem_iff.mpr ((Grouping.mem_group ..).mpr hcollect)
    exact List.mem_map.mpr ⟨(id, entry), hmem, congrArg (Prod.mk id) hvalue⟩

/-- The map has the foreign keys in the order of their ids, whatever the order of the rows. -/
theorem byId_eq (table : SqliteTable) (rows : List ForeignKeyRow)
    (hrows : rows.Perm table.foreignKeyRows) :
    (byId rows).map (fun entry => (entry.1, entry.2.1, sortBySeq entry.2.2)) =
      table.foreignKeys.zipIdx.map fun entry =>
        (entry.2, entry.1.table, entry.1.columns.zipIdx.map Prod.swap) := by
  have hstrict : (table.foreignKeys.zipIdx.map fun entry =>
      (entry.2, entry.1.table, entry.1.columns.zipIdx.map Prod.swap)).Pairwise
        fun entry entry' => entry.1 < entry'.1 :=
    Grouping.zipIdx_strict _ 0 _ Prod.fst fun _ => rfl
  have hkeys : ((byId rows).map Prod.fst).Nodup :=
    ((List.mergeSort_perm _ _).map Prod.fst).nodup_iff.mpr (Grouping.keys_group ..)
  apply Grouping.sorted_unique Prod.fst _ _ _ _ hstrict
  · rw [List.perm_ext_iff_of_nodup]
    · intro ⟨id, parent, columns⟩
      rw [mem_byId table rows hrows, Option.map_eq_some_iff, List.mem_map]
      constructor
      · rintro ⟨foreignKey, hget, hvalue⟩
        exact ⟨(foreignKey, id), List.mem_zipIdx_iff_getElem?.mpr hget,
          congrArg (Prod.mk id) hvalue⟩
      · rintro ⟨⟨foreignKey, id'⟩, hmem, heq⟩
        obtain ⟨rfl, hvalue⟩ := Prod.mk.inj heq
        exact ⟨foreignKey, List.mem_zipIdx_iff_getElem?.mp hmem, hvalue⟩
    · exact List.Nodup.of_map Prod.fst (by rwa [List.map_map])
    · exact List.Nodup.of_map Prod.fst (List.pairwise_map.mpr (hstrict.imp Nat.ne_of_lt))
  · rw [List.pairwise_map]
    exact Grouping.mergeSort_sorted Prod.fst _

def SqliteForeignKey.info (foreignKey : SqliteForeignKey) (relation : Str) (id : Nat) :
    ConstraintInfo where
  name := "fk_".toList ++ relation ++ '_' :: natStr id
  kind := .ForeignKey
  columns := foreignKey.columns
  references := some foreignKey.table
  expr := none

theorem foreignKeyConstraints_eq (table : SqliteTable) (relation : Str)
    (rows : List ForeignKeyRow) (hrows : rows.Perm table.foreignKeyRows) :
    (byId rows).map (foreignKeyConstraint relation) =
      table.foreignKeys.zipIdx.map fun entry => entry.1.info relation entry.2 := by
  have hfactor : (byId rows).map (foreignKeyConstraint relation) =
      ((byId rows).map fun entry => (entry.1, entry.2.1, sortBySeq entry.2.2)).map
        fun entry => ({
          name := "fk_".toList ++ relation ++ '_' :: natStr entry.1
          kind := .ForeignKey
          columns := entry.2.2.map Prod.snd
          references := some entry.2.1
          expr := none } : ConstraintInfo) := by
    rw [List.map_map]
    rfl
  rw [hfactor, byId_eq table rows hrows, List.map_map]
  apply List.map_congr_left
  intro entry hentry
  simp only [Function.comp_apply, SqliteForeignKey.info, List.map_map]
  congr 1
  exact List.zipIdx_map_fst 0 entry.1.columns

/-! ### What is reported -/

/- What a constraint is known by, and its columns. -/
def keyColumns (constraint : ConstraintInfo) : Str × ConstraintKind × List Str :=
  (constraint.name, constraint.kind, constraint.columns)

/- The keys of a relation under the names that the report gives to them. -/
def SqliteTable.primaryKeys (table : SqliteTable) : List (Str × ConstraintKind × List Str) :=
  if table.primaryKey = [] then []
  else [("pk_".toList ++ table.name, .PrimaryKey, table.primaryKey)]

def SqliteTable.foreignKeyColumns (table : SqliteTable) :
    List (Str × ConstraintKind × List Str) :=
  table.foreignKeys.zipIdx.map fun (foreignKey, id) =>
    ("fk_".toList ++ table.name ++ '_' :: natStr id, .ForeignKey, foreignKey.columns)

def SqliteTable.uniqueKeys (table : SqliteTable) : List (Str × ConstraintKind × List Str) :=
  table.uniques.map fun (name, columns) => (name, .Unique, columns)

theorem relation_ok (schema : SqliteSchema) (relation : Str) (table : SqliteTable)
    (h : schema.relation relation = .ok table) :
    table ∈ schema.tables ∧ table.name = relation := by
  unfold SqliteSchema.relation at h
  cases hschema : quoteIdentifier .Sqlite schema.name with
  | error e => simp [hschema, bind, Except.bind] at h
  | ok quoted =>
    cases hfind : schema.tables.find? (·.name = relation) with
    | none => simp [hschema, hfind, bind, Except.bind] at h
    | some found =>
      simp only [hschema, hfind, bind, Except.bind, Except.ok.injEq] at h
      subst h
      exact ⟨List.mem_of_find?_eq_some hfind, by simpa using List.find?_some hfind⟩

theorem keyColumns_primaryKey (relation : Str) (pkColumns : List Str) :
    (primaryKeyConstraint relation pkColumns).map keyColumns =
      if pkColumns = [] then []
      else [("pk_".toList ++ relation, .PrimaryKey, pkColumns)] := by
  unfold primaryKeyConstraint
  split <;> rfl

/-- The report is the key columns in the order of the table, then the foreign keys. -/
theorem listConstraints_columns (schema : SqliteSchema) (relation : Str)
    (report : List ConstraintInfo) (hreport : schema.listConstraints relation = .ok report) :
    ∃ table ∈ schema.tables, table.name = relation ∧
      report.map keyColumns =
        (primaryKeyConstraint relation ((table.columns.map (·.name)).filter fun name =>
          name ∈ table.primaryKey)).map keyColumns ++ table.foreignKeyColumns := by
  unfold SqliteSchema.listConstraints at hreport
  cases htable : schema.relation relation with
  | error e => simp [htable, bind, Except.bind] at hreport
  | ok table =>
    obtain ⟨hmem, rfl⟩ := relation_ok schema relation table htable
    cases hquoted : quoteIdentifier .Sqlite table.name with
    | error e => simp [htable, hquoted, bind, Except.bind] at hreport
    | ok quoted =>
      simp only [htable, hquoted, bind, Except.bind, Except.ok.injEq] at hreport
      refine ⟨table, hmem, rfl, ?_⟩
      rw [← hreport, List.map_append, pkColumns_eq,
        foreignKeyConstraints_eq table table.name _ (schema.foreignKeyList_rows table hmem),
        List.map_map]
      rfl

theorem primaryKeys_perm (name : Str) (key key' : List Str) :
    ((if key = [] then [] else [("pk_".toList ++ name, ConstraintKind.PrimaryKey, key)]).Perm
      (if key' = [] then [] else [("pk_".toList ++ name, ConstraintKind.PrimaryKey, key')])) ↔
      key = key' := by
  constructor
  · intro h
    split at h <;> split at h
    · simp_all
    · exact absurd (List.nil_perm.mp h) (by simp)
    · exact absurd (List.perm_nil.mp h) (by simp)
    · simpa using List.perm_singleton.mp h
  · rintro rfl
    exact List.Perm.refl _

theorem listConstraints_table (schema : SqliteSchema) (table : SqliteTable)
    (htable : table ∈ schema.tables) (report : List ConstraintInfo)
    (hreport : schema.listConstraints table.name = .ok report) :
    report.map keyColumns =
      (if (table.columns.map (·.name)).filter (fun name => name ∈ table.primaryKey) = [] then []
        else [("pk_".toList ++ table.name, .PrimaryKey,
          (table.columns.map (·.name)).filter fun name => name ∈ table.primaryKey)]) ++
      table.foreignKeyColumns := by
  obtain ⟨table', htable', hname, hcolumns⟩ :=
    listConstraints_columns schema table.name report hreport
  obtain rfl := List.inj_on_of_nodup_map schema.tables_nodup htable' htable hname
  rw [hcolumns, keyColumns_primaryKey]

theorem listConstraints_not_unique (schema : SqliteSchema) (table : SqliteTable)
    (htable : table ∈ schema.tables) (report : List ConstraintInfo)
    (hreport : schema.listConstraints table.name = .ok report)
    (entry : Str × ConstraintKind × List Str) (hentry : entry ∈ report.map keyColumns) :
    entry.2.1 ≠ .Unique := by
  rw [listConstraints_table schema table htable report hreport, List.mem_append] at hentry
  rcases hentry with hentry | hentry
  · split at hentry
    · exact absurd hentry List.not_mem_nil
    · rw [List.mem_singleton.mp hentry]
      exact ConstraintKind.noConfusion
  · obtain ⟨_, -, rfl⟩ := List.mem_map.mp hentry
    exact ConstraintKind.noConfusion

/-- Foreign keys are reported as they are, and a primary key is where its own order and the
order of the table agree. -/
theorem sqlite_columns_iff (schema : SqliteSchema) (table : SqliteTable)
    (htable : table ∈ schema.tables) (report : List ConstraintInfo)
    (hreport : schema.listConstraints table.name = .ok report) :
    (report.map keyColumns).Perm (table.primaryKeys ++ table.foreignKeyColumns) ↔
      table.primaryKey.Sublist (table.columns.map (·.name)) := by
  rw [listConstraints_table schema table htable report hreport, List.perm_append_right_iff,
    SqliteTable.primaryKeys, primaryKeys_perm, pkColumns_iff]

/-- With the unique constraints the report is complete only where there are none. -/
theorem sqlite_uniques_iff (schema : SqliteSchema) (table : SqliteTable)
    (htable : table ∈ schema.tables) (report : List ConstraintInfo)
    (hreport : schema.listConstraints table.name = .ok report) :
    (report.map keyColumns).Perm
        (table.primaryKeys ++ table.foreignKeyColumns ++ table.uniqueKeys) ↔
      table.primaryKey.Sublist (table.columns.map (·.name)) ∧ table.uniques = [] := by
  have hiff := sqlite_columns_iff schema table htable report hreport
  cases huniques : table.uniques with
  | nil => simp [SqliteTable.uniqueKeys, huniques, hiff]
  | cons unique uniques =>
    constructor
    · intro hperm
      have hmem : (unique.1, ConstraintKind.Unique, unique.2) ∈ report.map keyColumns := by
        apply hperm.mem_iff.mpr
        simp [SqliteTable.uniqueKeys, huniques]
      exact absurd rfl (listConstraints_not_unique schema table htable report hreport _ hmem)
    · rintro ⟨-, hnil⟩
      exact absurd hnil (by simp)

end FsspecDb.Constraints
