import FsspecDb.Constraints.InformationSchema

/-!
# The columns of a key are its own

SQLite's primary keys lose their order, and in the information schema a key gets the columns of
every key that has its name in the schema.
-/

namespace FsspecDb.Constraints

variable {catalog : Catalog} {schema relation : Str}

/- No other key is taken for a key of the relation. Without a second catalog this says that the
   name of a key is used by no other key in the schema. -/
def OwnNames (catalog : Catalog) (schema relation : Str) : Prop :=
  ∀ c ∈ catalog.ofRelation schema relation, c.kind ≠ .Check →
    ∀ d ∈ catalog.constraints, d ≠ c → d.schema = schema → d.name = c.name → d.kind ≠ .Check →
      d.catalog ≠ c.catalog ∧ (d.table = relation → d.kind ≠ c.kind)

theorem mem_ofRelation (c : TableConstraint) :
    c ∈ catalog.ofRelation schema relation ↔
      c ∈ catalog.constraints ∧ c.schema = schema ∧ c.table = relation := by
  rw [Catalog.ofRelation, List.mem_filter, decide_eq_true_eq]

theorem mem_namesakes (c d : TableConstraint) :
    d ∈ catalog.namesakes c ↔ d ∈ catalog.constraints ∧
      d.catalog = c.catalog ∧ d.schema = c.schema ∧ d.name = c.name := by
  rw [Catalog.namesakes, List.mem_filter, decide_eq_true_eq]

theorem ofRelation_nodup (catalog : Catalog) (schema relation : Str) :
    (catalog.ofRelation schema relation).Nodup :=
  (List.Nodup.of_map _ catalog.names_nodup).filter _

theorem namesakes_nodup (catalog : Catalog) (c : TableConstraint) :
    (catalog.namesakes c).Nodup :=
  (List.Nodup.of_map _ catalog.names_nodup).filter _

/-! ### With names of their own the keys come out as declared -/

theorem namesakes_usage (h : OwnNames catalog schema relation) (c : TableConstraint)
    (hc : c ∈ catalog.ofRelation schema relation) (hkind : c.kind ≠ .Check) :
    (catalog.namesakes c).flatMap TableConstraint.usage = c.usage := by
  obtain ⟨hmem, hschema, -⟩ := (mem_ofRelation c).mp hc
  apply Grouping.flatMap_single _ (namesakes_nodup catalog c)
  · exact (mem_namesakes c c).mpr ⟨hmem, rfl, rfl, rfl⟩
  · intro d hd hne
    obtain ⟨hd, hcatalog, hschema', hname⟩ := (mem_namesakes c d).mp hd
    have hcheck : d.kind = .Check := by
      by_contra hkey
      exact (h c hc hkind d hd hne (hschema'.trans hschema) hname hkey).1 hcatalog
    rw [TableConstraint.usage, d.columns_nil.mpr hcheck]
    rfl

theorem join_own (h : OwnNames catalog schema relation) (c : TableConstraint)
    (hc : c ∈ catalog.ofRelation schema relation) (hkind : c.kind ≠ .Check) :
    ((catalog.ofRelation schema relation).flatMap fun d =>
      if d.name = c.name ∧ d.kind = c.kind then
        Grouping.withPartners d.row ((catalog.namesakes d).flatMap TableConstraint.usage)
      else []) = c.usage.map fun kcu => (c.row, some kcu) := by
  rw [Grouping.flatMap_single _ (ofRelation_nodup catalog schema relation) _ c hc]
  · rw [if_pos ⟨rfl, rfl⟩, namesakes_usage h c hc hkind]
    have hne : c.columns ≠ [] := fun hnil => hkind (c.columns_nil.mp hnil)
    cases husage : c.usage with
    | nil => simp [TableConstraint.usage, hne] at husage
    | cons kcu rest => rfl
  · intro d hd hne
    obtain ⟨hmem, hschema, htable⟩ := (mem_ofRelation d).mp hd
    apply if_neg
    rintro ⟨hname, hsame⟩
    have hkey : d.kind ≠ .Check := hsame ▸ hkind
    exact (h c hc hkind d hmem hne hschema hname hkey).2 htable hsame

/- The position that the rows are ordered by. -/
def position (row : JoinedRow) : Nat := row.2.elim 0 KeyColumnUsageRow.ordinalPosition

theorem Answer.columns_own (answer : Answer catalog schema relation)
    (h : OwnNames catalog schema relation) (c : TableConstraint)
    (hc : c ∈ catalog.ofRelation schema relation) (hkind : c.kind ≠ .Check) :
    answer.columns c.name c.kind = c.columns := by
  have hperm := answer.filter_perm c.name c.kind
  rw [join_own h c hc hkind] at hperm
  have hrows : answer.rows.filter (hasKey c.name c.kind) =
      c.usage.map fun kcu => (c.row, some kcu) := by
    apply Grouping.sorted_unique position _ _ hperm
    · refine (answer.rows_ordered.sublist List.filter_sublist).imp_of_mem ?_
      intro row row' hrow hrow' hordered
      obtain ⟨kcu, -, rfl⟩ := List.mem_map.mp (hperm.mem_iff.mp hrow)
      obtain ⟨kcu', -, rfl⟩ := List.mem_map.mp (hperm.mem_iff.mp hrow')
      exact hordered rfl kcu rfl kcu' rfl
    · rw [TableConstraint.usage, List.map_map]
      exact Grouping.zipIdx_strict _ 1 _ position fun _ => rfl
  rw [Answer.columns, hrows, List.filterMap_map]
  exact (congrArg _ List.filterMap_some).trans (usage_columns c)

/-! ### A shared name adds columns -/

theorem sharedColumns_length (c d : TableConstraint) (hc : c ∈ catalog.constraints)
    (hd : d ∈ catalog.namesakes c) (hne : c ≠ d) :
    c.columns.length + d.columns.length ≤ (catalog.sharedColumns c).length :=
  Grouping.length_flatMap_pair _ _ c d ((mem_namesakes c c).mpr ⟨hc, rfl, rfl, rfl⟩) hd hne

theorem Answer.columns_length (answer : Answer catalog schema relation) (c : TableConstraint)
    (hc : c ∈ catalog.ofRelation schema relation) :
    (catalog.sharedColumns c).length ≤ (answer.columns c.name c.kind).length := by
  rw [(answer.columns_perm c.name c.kind).length_eq]
  obtain ⟨before, after, heq⟩ := List.append_of_mem hc
  rw [heq, List.flatMap_append, List.flatMap_cons, if_pos ⟨rfl, rfl⟩]
  simp only [List.length_append]
  omega

/-! ### Exactly when the report is right -/

/- The reported constraints that have a key. -/
def reportedKeys (report : List ConstraintInfo) : List (Str × ConstraintKind × List Str) :=
  (report.filter fun constraint => constraint.kind ≠ .Check).map keyColumns

theorem mem_catalogKeys (entry : Str × ConstraintKind × List Str) :
    entry ∈ catalog.keys schema relation ↔ ∃ c ∈ catalog.ofRelation schema relation,
      c.kind ≠ .Check ∧ entry = (c.name, c.kind, c.columns) := by
  simp only [Catalog.keys, List.mem_map, List.mem_filter, decide_eq_true_eq, and_assoc,
    eq_comm (a := entry)]

theorem Answer.mem_reportedKeys (answer : Answer catalog schema relation)
    (entry : Str × ConstraintKind × List Str) :
    entry ∈ reportedKeys (listConstraints answer.table) ↔
      ∃ c ∈ catalog.ofRelation schema relation, c.kind ≠ .Check ∧
        entry = (c.name, c.kind, answer.columns c.name c.kind) := by
  have hfilter : reportedKeys (listConstraints answer.table) =
      ((listConstraints answer.table).map keyColumns).filter fun entry => entry.2.1 ≠ .Check := by
    rw [reportedKeys, List.filter_map]
    rfl
  rw [hfilter, List.mem_filter, answer.mem_report, decide_eq_true_eq]
  constructor
  · rintro ⟨⟨c, hc, rfl⟩, hkind⟩
    exact ⟨c, hc, hkind, rfl⟩
  · rintro ⟨c, hc, hkind, rfl⟩
    exact ⟨⟨c, hc, rfl⟩, hkind⟩

theorem Answer.reportedKeys_nodup (answer : Answer catalog schema relation) :
    ((reportedKeys (listConstraints answer.table)).map fun entry =>
      (entry.1, entry.2.1)).Nodup := by
  rw [reportedKeys, List.map_map]
  exact answer.report_nodup.sublist (List.filter_sublist.map _)

theorem keys_distinct (h : OwnNames catalog schema relation) :
    (catalog.keys schema relation).Nodup := by
  apply List.Nodup.map_on _ ((ofRelation_nodup catalog schema relation).filter _)
  intro c hc d hd heq
  obtain ⟨hc, hkind⟩ := List.mem_filter.mp hc
  obtain ⟨hd, hkey⟩ := List.mem_filter.mp hd
  obtain ⟨hname, hrest⟩ := Prod.mk.inj heq
  obtain ⟨hmem, hschema, htable⟩ := (mem_ofRelation d).mp hd
  by_contra hne
  have hnames := h c hc (of_decide_eq_true hkind) d hmem (Ne.symm hne) hschema hname.symm
    (of_decide_eq_true hkey)
  exact hnames.2 htable (Prod.mk.inj hrest).1.symm

theorem Answer.reportedKeys_iff (answer : Answer catalog schema relation) :
    (reportedKeys (listConstraints answer.table)).Perm (catalog.keys schema relation) ↔
      OwnNames catalog schema relation := by
  constructor
  · intro hperm c hc hkind d hd hne hschema hname hkey
    have hdistinct := ((hperm.map fun entry => (entry.1, entry.2.1)).nodup_iff).mp
      answer.reportedKeys_nodup
    obtain ⟨hmem, hschemaC, -⟩ := (mem_ofRelation c).mp hc
    have hown : answer.columns c.name c.kind = c.columns := by
      obtain ⟨c', -, -, heq⟩ := (answer.mem_reportedKeys _).mp
        (hperm.mem_iff.mpr ((mem_catalogKeys _).mpr ⟨c, hc, hkind, rfl⟩))
      simp only [Prod.mk.injEq] at heq
      rw [heq.1, heq.2.1, heq.2.2]
    constructor
    · intro hcatalog
      have hshared := sharedColumns_length c d hmem
        ((mem_namesakes c d).mpr ⟨hd, hcatalog, hschema.trans hschemaC.symm, hname⟩) hne.symm
      have hlength := answer.columns_length c hc
      rw [hown] at hlength
      have hnil : d.columns = [] := List.length_eq_zero_iff.mp (by omega)
      exact hkey (d.columns_nil.mp hnil)
    · intro htable hsame
      have hdmem := (mem_ofRelation d).mpr ⟨hd, hschema, htable⟩
      rw [Catalog.keys, List.map_map] at hdistinct
      refine hne (List.inj_on_of_nodup_map hdistinct ?_ ?_ (Prod.ext hname hsame))
      · exact List.mem_filter.mpr ⟨hdmem, decide_eq_true hkey⟩
      · exact List.mem_filter.mpr ⟨hc, decide_eq_true hkind⟩
  · intro h
    rw [List.perm_ext_iff_of_nodup (List.Nodup.of_map _ answer.reportedKeys_nodup)
      (keys_distinct h)]
    intro entry
    rw [answer.mem_reportedKeys, mem_catalogKeys]
    constructor
    · rintro ⟨c, hc, hkind, rfl⟩
      exact ⟨c, hc, hkind, by rw [answer.columns_own h c hc hkind]⟩
    · rintro ⟨c, hc, hkind, rfl⟩
      exact ⟨c, hc, hkind, by rw [answer.columns_own h c hc hkind]⟩

/-! ### Both backends -/

/-- SQLite reports a primary key in its own order exactly where the table has that order, its
foreign keys always, and its unique constraints never. The information schema gives a relation
its keys exactly where no other key is taken for one of them. -/
theorem key_columns (database : SqliteSchema) (table : SqliteTable)
    (htable : table ∈ database.tables) (report : List ConstraintInfo)
    (hreport : database.listConstraints table.name = .ok report)
    (catalog : Catalog) (schema relation : Str) (answer : Answer catalog schema relation) :
    ((report.map keyColumns).Perm (table.primaryKeys ++ table.foreignKeyColumns) ↔
      table.primaryKey.Sublist (table.columns.map (·.name))) ∧
    ((report.map keyColumns).Perm
        (table.primaryKeys ++ table.foreignKeyColumns ++ table.uniqueKeys) ↔
      table.primaryKey.Sublist (table.columns.map (·.name)) ∧ table.uniques = []) ∧
    ((reportedKeys (listConstraints answer.table)).Perm (catalog.keys schema relation) ↔
      OwnNames catalog schema relation) :=
  ⟨sqlite_columns_iff database table htable report hreport,
    sqlite_uniques_iff database table htable report hreport, answer.reportedKeys_iff⟩

/- A table with its key in the order of the columns, and one whose key has another order. -/

def textColumns (names : List Str) : List SqliteColumn :=
  names.map fun name => { name, type := "TEXT".toList, notnull := false, dfltValue := none }

def partTable : SqliteTable where
  name := "part".toList
  columns := textColumns ["line".toList, "item".toList, "shop".toList]
  primaryKey := ["line".toList, "item".toList]
  foreignKeys := [{ table := "line".toList, columns := ["item".toList, "line".toList]
                    columns_ne := by decide }]
  uniques := []
  columns_nodup := by decide
  primaryKey_nodup := by decide
  primaryKey_columns := by decide

def lineTable : SqliteTable where
  name := "line".toList
  columns := textColumns ["line".toList, "item".toList]
  primaryKey := ["item".toList, "line".toList]
  foreignKeys := []
  uniques := []
  columns_nodup := by decide
  primaryKey_nodup := by decide
  primaryKey_columns := by decide

def lineSchema : SqliteSchema where
  name := "main".toList
  tables := [partTable, lineTable]
  foreignKeyList := fun relation =>
    if relation = "part".toList then partTable.foreignKeyRows else []
  tables_nodup := by decide
  foreignKeyList_rows := by
    intro table htable
    simp only [List.mem_cons, List.not_mem_nil, or_false] at htable
    rcases htable with rfl | rfl
    · exact List.Perm.refl _
    · exact List.Perm.refl _

/- Three tables of a MySQL server, which names every primary key `PRIMARY`. -/
def primary (schema table : Str) (column : Str) (columns : List Str) : TableConstraint where
  catalog := "def".toList
  schema := schema
  table := table
  name := "PRIMARY".toList
  kind := .PrimaryKey
  columns := column :: columns
  columns_nil := by simp

def shopCatalog : Catalog where
  constraints := [
    primary "shop".toList "orders".toList "id".toList [],
    primary "shop".toList "items".toList "order_id".toList ["line".toList],
    primary "depot".toList "stock".toList "place".toList ["item".toList]]
  names_nodup := by decide

def ordersAnswer : Answer shopCatalog "shop".toList "orders".toList where
  rows := (Grouping.leftJoin onClause shopCatalog.tableConstraints
    shopCatalog.keyColumnUsage).filter fun row => whereClause "shop".toList "orders".toList row.1
  rows_perm := List.Perm.refl _
  rows_ordered := by decide

def stockAnswer : Answer shopCatalog "depot".toList "stock".toList where
  rows := (Grouping.leftJoin onClause shopCatalog.tableConstraints
    shopCatalog.keyColumnUsage).filter fun row => whereClause "depot".toList "stock".toList row.1
  rows_perm := List.Perm.refl _
  rows_ordered := by decide

theorem stock_ownNames : OwnNames shopCatalog "depot".toList "stock".toList := by
  intro c hc _ d hd hne hschema
  obtain ⟨hc, hschemaC, -⟩ := (mem_ofRelation c).mp hc
  have hthird (e : TableConstraint) (he : e ∈ shopCatalog.constraints)
      (hdepot : e.schema = "depot".toList) :
      e = primary "depot".toList "stock".toList "place".toList ["item".toList] := by
    simp only [shopCatalog, List.mem_cons, List.not_mem_nil, or_false] at he
    rcases he with rfl | rfl | rfl
    · exact absurd hdepot (by decide)
    · exact absurd hdepot (by decide)
    · rfl
  exact absurd ((hthird d hd hschema).trans (hthird c hc hschemaC).symm) hne

theorem key_columns_part :
    (∃ report, lineSchema.listConstraints partTable.name = .ok report ∧
      (report.map keyColumns).Perm (partTable.primaryKeys ++ partTable.foreignKeyColumns)) ∧
    (reportedKeys (listConstraints stockAnswer.table)).Perm
      (shopCatalog.keys "depot".toList "stock".toList) := by
  have h := key_columns lineSchema partTable (List.mem_cons_self ..) _ rfl shopCatalog
    "depot".toList "stock".toList stockAnswer
  exact ⟨⟨_, rfl, h.1.mpr (by decide)⟩, h.2.2.mpr stock_ownNames⟩

/-- The key `(item, line)` is reported as `(line, item)`, and the key of `orders` has the columns
of the key of `items` as well. -/
theorem key_columns_line :
    (∃ report, lineSchema.listConstraints lineTable.name = .ok report ∧
      report.map keyColumns =
        [("pk_line".toList, .PrimaryKey, ["line".toList, "item".toList])] ∧
      ¬(report.map keyColumns).Perm (lineTable.primaryKeys ++ lineTable.foreignKeyColumns)) ∧
    reportedKeys (listConstraints ordersAnswer.table) =
      [("PRIMARY".toList, .PrimaryKey, ["id".toList, "order_id".toList, "line".toList])] ∧
    ¬(reportedKeys (listConstraints ordersAnswer.table)).Perm
      (shopCatalog.keys "shop".toList "orders".toList) := by
  have hline : lineTable ∈ lineSchema.tables := List.mem_cons_of_mem _ (List.mem_cons_self ..)
  have hcolumns := listConstraints_table lineSchema lineTable hline _ rfl
  refine ⟨⟨_, rfl, ?_, ?_⟩, by decide, by decide⟩
  · rw [hcolumns]
    decide
  · rw [hcolumns]
    decide

end FsspecDb.Constraints
