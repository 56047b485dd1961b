import FsspecDb.Sql.Intended
import FsspecDb.Sql.Predicate
import FsspecDb.Sqlite.Catalog

/-!
# The namespace of a SQLite connection

What the catalog declares, and the `Database` methods that read it back.
-/

namespace FsspecDb.Sqlite.Catalog
open Text Sql Fs Constraints

/-! ### What the catalog declares -/

def rowCount (relation : SqliteRelation) : Option UInt64 :=
  if relation.kind = .Table then relation.count.toOption else none

/- The names that the report gives to the keys of a table. -/
def constraintNames (table : SqliteTable) : List Str :=
  (if table.primaryKey = [] then [] else ["pk_".toList ++ table.name]) ++
    (List.range table.foreignKeys.length).map fun id =>
      "fk_".toList ++ table.name ++ '_' :: natStr id

/- One index on an expression keeps all of them from being listed. -/
def indexNames (relation : SqliteRelation) : List Str :=
  if ∀ index ∈ relation.indexes, ∀ column ∈ index.columns, column.isSome then
    relation.indexes.map (·.name)
  else []

/- The references of a view that the listing of its dependencies keeps. -/
def viewReferences (viewDependencies : Str → List Str) (relation : SqliteRelation) : List Str :=
  (viewDependencies relation.sql).filter fun dependency =>
    ((rsplitOnce dependency '.').map Prod.snd).getD dependency ≠ relation.name

def declaredItems (viewDependencies : Str → List Str) (schema : Str) (relation : SqliteRelation) :
    DbFacet → List Str
  | .Columns => relation.table.columns.map (·.name)
  | .Indexes => indexNames relation
  | .Constraints => constraintNames relation.table
  | .DependsOn => (viewReferences viewDependencies relation).map (dependencyName schema)

def declaredRelation (viewDependencies : Str → List Str) (schema : Str)
    (relation : SqliteRelation) : List BuilderCall :=
  .relationPath schema relation.name ::
    (((facetsOf relation.kind).flatMap fun facet => .facetPath schema relation.name facet ::
        (declaredItems viewDependencies schema relation facet).map
          (.facetItemPath schema relation.name facet)) ++
      if relation.kind = .View then [.viewDefinitionPath schema relation.name] else [])

/-- Everything the catalog shows: the relations of each schema that are not hidden, by name. -/
def declared (viewDependencies : Str → List Str) (c : Connection) : List BuilderCall :=
  c.schemas.flatMap fun attached => .schemaPath attached.name ::
    (visible attached).flatMap (declaredRelation viewDependencies attached.name)

/-- The names of a relation and of what it has stand in paths and in statements. -/
structure PlainRelation (viewDependencies : Str → List Str) (relation : SqliteRelation) :
    Prop where
  name : PathName relation.name ∧ '\x00' ∉ relation.name
  suffix : NoFormatSuffix relation.name
  count : relation.kind = .Table → ∃ n, relation.count = .ok n
  columns : ∀ column ∈ relation.table.columns, PathName column.name
  indexes : NamesOk (relation.indexes.map (·.name))
  indexNuls : ∀ index ∈ relation.indexes, '\x00' ∉ index.name
  references : ∀ schema,
    NamesOk ((viewReferences viewDependencies relation).map (dependencyName schema))

structure Plain (viewDependencies : Str → List Str) (c : Connection) : Prop where
  schemas : ∀ attached ∈ c.schemas, PathName attached.name ∧ '\x00' ∉ attached.name
  relations : ∀ attached ∈ c.schemas, ∀ relation ∈ attached.relations,
    PlainRelation viewDependencies relation

/-! ### Lookups -/

theorem quoteIdentifier_ok (dialect : Dialect) (name : Str)
    (h : PathName name ∧ '\x00' ∉ name) : ∃ text, quoteIdentifier dialect name = .ok text :=
  (exists_quoteIdentifier_iff dialect name).mpr ⟨h.1.1, h.2⟩

theorem relations_nodup (attached : Attached) : (attached.relations.map (·.name)).Nodup := by
  have hnodup := attached.schema.tables_nodup
  rw [attached.tables, List.map_map] at hnodup
  exact hnodup

section
variable (c : Connection) (unknownDatabase : Str → DbError) (nullName : DbError)

theorem attached_ok (schema : Str) (attached : Attached)
    (h : c.attached unknownDatabase schema = .ok attached) :
    attached ∈ c.schemas ∧ ∃ text, quoteIdentifier .Sqlite schema = .ok text := by
  obtain ⟨text, htext, h⟩ := Checked.bind_eq_ok_iff.mp h
  split at h
  · next found hfind =>
    obtain rfl := Except.ok.inj h
    exact ⟨List.mem_of_find?_eq_some hfind, text, htext⟩
  · cases h

theorem attached_of_mem (attached : Attached) (hmem : attached ∈ c.schemas)
    (hname : PathName attached.name ∧ '\x00' ∉ attached.name) :
    c.attached unknownDatabase attached.name = .ok attached := by
  obtain ⟨text, htext⟩ := quoteIdentifier_ok .Sqlite _ hname
  have hfind : (c.schemas.find? fun other =>
      toAsciiLowercase other.name = toAsciiLowercase attached.name) = some attached :=
    Keyed.find_key c.schemas (fun other => toAsciiLowercase other.name) c.schemas_nodup attached
      hmem _ fun _ _ => rfl
  refine Checked.bind_eq_ok_iff.mpr ⟨text, htext, ?_⟩
  rw [hfind]

theorem relation_ok_iff (schema relation : Str) (row : SqliteRelation) :
    c.relation unknownDatabase schema relation = .ok row ↔
      ∃ attached, c.attached unknownDatabase schema = .ok attached ∧
        row ∈ attached.relations ∧ row.name = relation := by
  rw [Connection.relation, Checked.bind_eq_ok_iff]
  apply exists_congr
  intro attached
  apply and_congr_right
  intro _
  constructor
  · intro h
    split at h
    · next found hfind =>
      obtain rfl := Except.ok.inj h
      exact ⟨List.mem_of_find?_eq_some hfind, by simpa using List.find?_some hfind⟩
    · cases h
  · rintro ⟨hmem, rfl⟩
    rw [Keyed.find_key attached.relations (·.name) (relations_nodup attached) row hmem _
      fun _ _ => rfl]

theorem relation_of_info (schema relation : Str) (info : RelationInfo)
    (h : relationInfoAsync c unknownDatabase schema relation = .ok info) :
    ∃ row, c.relation unknownDatabase schema relation = .ok row ∧ info.name = row.name ∧
      info.kind = row.kind := by
  obtain ⟨row, hrow, h⟩ := Checked.bind_eq_ok_iff.mp h
  obtain ⟨count, _, h⟩ := Checked.bind_eq_ok_iff.mp h
  obtain rfl := Except.ok.inj h
  exact ⟨row, hrow, rfl, rfl⟩

end

/-! ### The methods on a relation of the catalog -/

section
variable (c : Connection) (unknownDatabase : Str → DbError) (nullName : DbError)
  (viewDependencies : Str → List Str) (hplain : Plain viewDependencies c)
  (schema relation : Str) (row : SqliteRelation)
  (hrow : c.relation unknownDatabase schema relation = .ok row)
include hplain hrow

theorem row_plain : PlainRelation viewDependencies row ∧ row.name = relation := by
  obtain ⟨attached, hattached, hmem, hname⟩ :=
    (relation_ok_iff c unknownDatabase schema relation row).mp hrow
  exact ⟨hplain.relations attached (attached_ok c unknownDatabase schema attached hattached).1 row
    hmem, hname⟩

theorem relationInfoAsync_eq : relationInfoAsync c unknownDatabase schema relation =
    .ok ⟨row.name, row.kind, rowCount row, none, none⟩ := by
  obtain ⟨attached, hattached, _, hname⟩ :=
    (relation_ok_iff c unknownDatabase schema relation row).mp hrow
  obtain ⟨hrelation, _⟩ :=
    row_plain c unknownDatabase viewDependencies hplain schema relation row hrow
  obtain ⟨_, text, htext⟩ := attached_ok c unknownDatabase schema attached hattached
  obtain ⟨text', htext'⟩ := quoteIdentifier_ok .Sqlite _ hrelation.name
  have hcount : relationRowCount schema row = .ok (rowCount row) := by
    rw [relationRowCount, rowCount]
    by_cases hkind : row.kind = .Table
    · obtain ⟨n, hn⟩ := hrelation.count hkind
      rw [if_neg (not_not.mpr hkind), if_pos hkind, htext, htext', hn]
      rfl
    · rw [if_pos hkind, if_neg hkind]
      rfl
  refine Checked.bind_eq_ok_iff.mpr ⟨row, hrow, ?_⟩
  rw [hcount]
  rfl

theorem listColumnsAsync_eq : listColumnsAsync c unknownDatabase schema relation =
    .ok (tableColumns row.table.tableInfo) := by
  obtain ⟨hrelation, rfl⟩ :=
    row_plain c unknownDatabase viewDependencies hplain schema relation row hrow
  obtain ⟨text, htext⟩ := quoteIdentifier_ok .Sqlite _ hrelation.name
  rw [listColumnsAsync,
    relationInfoAsync_eq c unknownDatabase viewDependencies hplain schema row.name row hrow, hrow]
  simp only [bind, Except.bind, htext]
  rfl

theorem listIndexes_eq : listIndexes c unknownDatabase nullName schema relation =
    row.indexes.mapM (indexInfo nullName) := by
  obtain ⟨hrelation, rfl⟩ :=
    row_plain c unknownDatabase viewDependencies hplain schema relation row hrow
  obtain ⟨text, htext⟩ := quoteIdentifier_ok .Sqlite _ hrelation.name
  rw [listIndexes,
    relationInfoAsync_eq c unknownDatabase viewDependencies hplain schema row.name row hrow, hrow]
  simp only [bind, Except.bind, htext]

theorem viewDefinition_eq (hkind : row.kind = .View) :
    viewDefinition c unknownDatabase schema relation = .ok row.sql := by
  rw [viewDefinition,
    relationInfoAsync_eq c unknownDatabase viewDependencies hplain schema relation row hrow]
  simp only [bind, Except.bind, hkind, ne_eq, not_true_eq_false, if_false, hrow]
  rfl

end

/-! ### The names of the keys -/

theorem natStr_injective : Function.Injective natStr := by
  intro n m h
  have hdigits : Nat.toDigits 10 n = Nat.toDigits 10 m := by simpa [natStr] using h
  rw [← Nat.ofDigitChars_ten_toDigits (n := n), hdigits, Nat.ofDigitChars_ten_toDigits]

theorem pathName_append (text name : Str) (htext : '/' ∉ text ∧ '?' ∉ text)
    (h : PathName name) : PathName (text ++ name) := by
  obtain ⟨hne, hslash, hquery, hblank⟩ := h
  refine ⟨by simp [hne], ?_, ?_, ?_⟩
  · rw [List.mem_append, not_or]
    exact ⟨htext.1, hslash⟩
  · rw [List.mem_append, not_or]
    exact ⟨htext.2, hquery⟩
  · rwa [endsBlank_append _ _ hne]

theorem pathName_natStr (n : Nat) : PathName (natStr n) := by
  have hdigits : natStr n = Nat.toDigits 10 n := by simp [natStr]
  rw [hdigits]
  have hword := isWordChar_of_mem_digits n
  refine ⟨Nat.toDigits_ne_nil, fun h => ?_, fun h => ?_, fun h => ?_⟩
  · exact absurd (hword '/' h) (by decide)
  · exact absurd (hword '?' h) (by decide)
  · obtain ⟨c, hlast, hblank⟩ := (Option.any_eq_true ..).mp h
    rw [isWhitespace_of_isWordChar c (hword c (List.mem_of_getLast? hlast))] at hblank
    cases hblank

theorem constraintNames_ok (table : SqliteTable) (hname : PathName table.name) :
    NamesOk (constraintNames table) := by
  have hforeign (id : Nat) : "fk_".toList ++ table.name ++ '_' :: natStr id =
      ("fk_".toList ++ table.name ++ ['_']) ++ natStr id := (List.append_assoc _ ['_'] _).symm
  constructor
  · rw [constraintNames, List.nodup_append]
    refine ⟨by split <;> simp, ?_, ?_⟩
    · apply List.nodup_range.map
      intro id id' h
      dsimp only at h
      rw [hforeign, hforeign, List.append_cancel_left_eq] at h
      exact natStr_injective h
    · intro name hprimary name' hname' heq
      obtain ⟨id, _, rfl⟩ := List.mem_map.mp hname'
      split at hprimary
      · cases hprimary
      · rw [List.mem_singleton.mp hprimary] at heq
        exact absurd (List.cons.inj heq).1 (by decide)
  · intro name h
    rcases List.mem_append.mp h with h | h
    · split at h
      · cases h
      · rw [List.mem_singleton.mp h]
        exact pathName_append _ _ (by decide) hname
    · obtain ⟨id, _, rfl⟩ := List.mem_map.mp h
      rw [hforeign]
      apply pathName_append _ _ _ (pathName_natStr id)
      have hprefix : '/' ∉ "fk_".toList ∧ '?' ∉ "fk_".toList := by decide
      simp only [List.mem_append, hname.2.1, hname.2.2.1, hprefix.1, hprefix.2, false_or]
      decide

theorem primaryKey_nil_iff (table : SqliteTable) :
    (table.columns.map (·.name)).filter (fun name => name ∈ table.primaryKey) = [] ↔
      table.primaryKey = [] := by
  rw [List.filter_eq_nil_iff]
  constructor
  · intro h
    rw [List.eq_nil_iff_forall_not_mem]
    intro name hname
    exact h name (table.primaryKey_columns name hname) (decide_eq_true hname)
  · intro h name _
    simp [h]

/-- The names do not depend on the schema's name or on the order of the key's columns. -/
theorem listConstraints_names (c : Connection) (unknownDatabase : Str → DbError)
    (viewDependencies : Str → List Str) (hplain : Plain viewDependencies c)
    (schema relation : Str) (row : SqliteRelation)
    (hrow : c.relation unknownDatabase schema relation = .ok row) :
    ∃ report, listConstraints c unknownDatabase schema relation = .ok report ∧
      report.map (·.name) = constraintNames row.table := by
  obtain ⟨attached, hattached, hmem, hname⟩ :=
    (relation_ok_iff c unknownDatabase schema relation row).mp hrow
  obtain ⟨hrelation, _⟩ :=
    row_plain c unknownDatabase viewDependencies hplain schema relation row hrow
  obtain ⟨_, text, htext⟩ := attached_ok c unknownDatabase schema attached hattached
  obtain ⟨text', htext'⟩ := quoteIdentifier_ok .Sqlite _ hrelation.name
  obtain rfl := hname
  have htable : row.table ∈ attached.schema.tables :=
    attached.tables ▸ List.mem_map_of_mem hmem
  have hfind : attached.schema.tables.find? (fun table => table.name = row.name) =
      some row.table :=
    Keyed.find_key _ (·.name) attached.schema.tables_nodup row.table htable _ fun _ _ => rfl
  have hreport : ∃ report,
      { attached.schema with name := schema }.listConstraints row.name = .ok report := by
    simp only [SqliteSchema.listConstraints, SqliteSchema.relation, htext, htext', hfind, bind,
      Except.bind]
    exact ⟨_, rfl⟩
  obtain ⟨report, hreport⟩ := hreport
  refine ⟨report, ?_, ?_⟩
  · rw [listConstraints,
      relationInfoAsync_eq c unknownDatabase viewDependencies hplain schema row.name row hrow,
      hattached]
    exact hreport
  · have hcolumns := listConstraints_table { attached.schema with name := schema } row.table
      htable report hreport
    have hnames : report.map (·.name) = (report.map keyColumns).map Prod.fst := by
      rw [List.map_map]
      rfl
    rw [hnames, hcolumns, List.map_append, constraintNames]
    congr 1
    · by_cases hkey : row.table.primaryKey = []
      · rw [if_pos ((primaryKey_nil_iff row.table).mpr hkey), if_pos hkey]
        rfl
      · rw [if_neg ((primaryKey_nil_iff row.table).not.mpr hkey), if_neg hkey]
        rfl
    · rw [SqliteTable.foreignKeyColumns, List.map_map, List.range_eq_range',
        ← List.zipIdx_map_snd 0 row.table.foreignKeys, List.map_map]
      rfl

/-! ### The names of the indexes -/

theorem indexInfo_ok (nullName : DbError) (index : SqliteIndex) (info : IndexInfo)
    (h : indexInfo nullName index = .ok info) : info.name = index.name := by
  obtain ⟨columns, _, h⟩ := Checked.bind_eq_ok_iff.mp h
  obtain rfl := Except.ok.inj h
  rfl

theorem exists_indexInfo_iff (nullName : DbError) (index : SqliteIndex)
    (hname : ∃ text, quoteIdentifier .Sqlite index.name = .ok text) :
    (∃ info, indexInfo nullName index = .ok info) ↔
      ∀ column ∈ index.columns, column.isSome := by
  obtain ⟨text, htext⟩ := hname
  have hcolumns : indexColumns nullName index =
      index.columns.mapM fun column => column.elim (.error nullName) .ok := by
    rw [indexColumns, htext]
    rfl
  have hcolumn (column : Option Str) :
      (∃ name : Str, column.elim (.error nullName) .ok = (.ok name : Except DbError Str)) ↔
        column.isSome := by
    cases column with
    | none => simp
    | some name => simp
  simp only [← hcolumn]
  rw [← Checked.exists_mapM_eq_ok_iff, ← hcolumns]
  constructor
  · rintro ⟨info, h⟩
    obtain ⟨columns, h, _⟩ := Checked.bind_eq_ok_iff.mp h
    exact ⟨columns, h⟩
  · rintro ⟨columns, h⟩
    exact ⟨_, Checked.bind_eq_ok_iff.mpr ⟨columns, h, rfl⟩⟩

theorem indexNames_eq (nullName : DbError) (relation : SqliteRelation)
    (hnames : ∀ index ∈ relation.indexes, ∃ text, quoteIdentifier .Sqlite index.name = .ok text) :
    (answered (relation.indexes.mapM (indexInfo nullName))).map (·.name) =
      indexNames relation := by
  have hiff : (∃ infos, relation.indexes.mapM (indexInfo nullName) = .ok infos) ↔
      ∀ index ∈ relation.indexes, ∀ column ∈ index.columns, column.isSome := by
    rw [Checked.exists_mapM_eq_ok_iff]
    exact forall₂_congr fun index hindex =>
      exists_indexInfo_iff nullName index (hnames index hindex)
  rw [indexNames]
  cases hinfos : relation.indexes.mapM (indexInfo nullName) with
  | error err =>
    rw [if_neg fun h => ?_]
    · rfl
    · obtain ⟨infos, hok⟩ := hiff.mpr h
      rw [hinfos] at hok
      cases hok
  | ok infos =>
    rw [if_pos (hiff.mp ⟨infos, hinfos⟩), ← List.forall₂_eq_eq_eq, List.forall₂_map_left_iff,
      List.forall₂_map_right_iff]
    apply (Checked.mapM_eq_ok_iff.mp hinfos).flip.imp
    exact fun info index h => indexInfo_ok nullName index info h

end FsspecDb.Sqlite.Catalog
