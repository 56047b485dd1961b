import FsspecDb.Constraints.Sqlite

/-!
# Constraints from the information schema (_information_schema.py, `list_constraints`)

The query joins `table_constraints` with `key_column_usage` on the catalog, the schema and the
name of the constraint. The views name the table as well, but the join does not ask for it.
-/

namespace FsspecDb.Constraints

/- A constraint as it was declared, with its key columns in the order of the key. A check has
   none. -/
structure TableConstraint where
  catalog : Str
  schema : Str
  table : Str
  name : Str
  kind : ConstraintKind
  columns : List Str
  columns_nil : columns = [] ↔ kind = .Check

/- The names are distinct in each table; two tables may use the same name. -/
structure Catalog where
  constraints : List TableConstraint
  names_nodup : (constraints.map fun c => (c.catalog, c.schema, c.table, c.name)).Nodup

/-! ### The views -/

structure TableConstraintsRow where
  constraintCatalog : Str
  constraintSchema : Str
  constraintName : Str
  tableSchema : Str
  tableName : Str
  constraintType : Str

structure KeyColumnUsageRow where
  constraintCatalog : Str
  constraintSchema : Str
  constraintName : Str
  columnName : Str
  ordinalPosition : Nat

def constraintType : ConstraintKind → Str
  | .PrimaryKey => "PRIMARY KEY".toList
  | .ForeignKey => "FOREIGN KEY".toList
  | .Unique => "UNIQUE".toList
  | .Check => "CHECK".toList

def TableConstraint.row (c : TableConstraint) : TableConstraintsRow where
  constraintCatalog := c.catalog
  constraintSchema := c.schema
  constraintName := c.name
  tableSchema := c.schema
  tableName := c.table
  constraintType := constraintType c.kind

def TableConstraint.usage (c : TableConstraint) : List KeyColumnUsageRow :=
  (c.columns.zipIdx 1).map fun (column, position) => {
    constraintCatalog := c.catalog
    constraintSchema := c.schema
    constraintName := c.name
    columnName := column
    ordinalPosition := position }

def Catalog.tableConstraints (catalog : Catalog) : List TableConstraintsRow :=
  catalog.constraints.map TableConstraint.row

def Catalog.keyColumnUsage (catalog : Catalog) : List KeyColumnUsageRow :=
  catalog.constraints.flatMap TableConstraint.usage

/-! ### The query -/

abbrev JoinedRow := TableConstraintsRow × Option KeyColumnUsageRow

def onClause (tc : TableConstraintsRow) (kcu : KeyColumnUsageRow) : Bool :=
  tc.constraintCatalog = kcu.constraintCatalog ∧ tc.constraintSchema = kcu.constraintSchema ∧
    tc.constraintName = kcu.constraintName

def whereClause (schema relation : Str) (tc : TableConstraintsRow) : Bool :=
  tc.tableSchema = schema ∧ tc.tableName = relation

/- An answer of the database. Of the order by name and position only what holds under every
   collation is kept: the rows of one name come by position. -/
structure Answer (catalog : Catalog) (schema relation : Str) where
  rows : List JoinedRow
  rows_perm : rows.Perm
    ((Grouping.leftJoin onClause catalog.tableConstraints catalog.keyColumnUsage).filter
      fun row => whereClause schema relation row.1)
  rows_ordered : rows.Pairwise fun row row' =>
    row.1.constraintName = row'.1.constraintName →
      ∀ kcu ∈ row.2, ∀ kcu' ∈ row'.2, kcu.ordinalPosition ≤ kcu'.ordinalPosition

structure ConstraintRow where
  constraintName : Str
  constraintType : Str
  columnName : Option Str

def selected (row : JoinedRow) : ConstraintRow where
  constraintName := row.1.constraintName
  constraintType := row.1.constraintType
  columnName := row.2.map KeyColumnUsageRow.columnName

/-! ### The code -/

def addColumn (columns : List Str) (row : ConstraintRow) : List Str :=
  match row.columnName with
  | some column => columns ++ [column]
  | none => columns

def rowKey (row : ConstraintRow) : Str × Str := (row.constraintName, row.constraintType)

def grouped (table : List ConstraintRow) : List ((Str × Str) × List Str) :=
  Grouping.group rowKey (fun _ => []) addColumn table

def kinds : List (Str × ConstraintKind) :=
  [("PRIMARY KEY".toList, .PrimaryKey), ("FOREIGN KEY".toList, .ForeignKey),
    ("UNIQUE".toList, .Unique), ("CHECK".toList, .Check)]

/- `kind.upper()`; the types are ASCII. -/
def kindOf (type : Str) : Option ConstraintKind := kinds.lookup (type.map Char.toUpper)

/- `ConstraintInfo(name, kind, columns)`, the rest by default. -/
def plainInfo (name : Str) (kind : ConstraintKind) (columns : List Str) : ConstraintInfo where
  name := name
  kind := kind
  columns := columns
  references := none
  expr := none

def listConstraints (table : List ConstraintRow) : List ConstraintInfo :=
  (grouped table).filterMap fun entry =>
    (kindOf entry.1.2).map fun kind => plainInfo entry.1.1 kind entry.2

/-! ### What belongs to a relation -/

def Catalog.ofRelation (catalog : Catalog) (schema relation : Str) : List TableConstraint :=
  catalog.constraints.filter fun c => c.schema = schema ∧ c.table = relation

/- The keys of a relation, each with its own columns. -/
def Catalog.keys (catalog : Catalog) (schema relation : Str) :
    List (Str × ConstraintKind × List Str) :=
  ((catalog.ofRelation schema relation).filter fun c => c.kind ≠ .Check).map fun c =>
    (c.name, c.kind, c.columns)

/- The constraints that the join takes for `c`. -/
def Catalog.namesakes (catalog : Catalog) (c : TableConstraint) : List TableConstraint :=
  catalog.constraints.filter fun d => d.catalog = c.catalog ∧ d.schema = c.schema ∧ d.name = c.name

def Catalog.sharedColumns (catalog : Catalog) (c : TableConstraint) : List Str :=
  (catalog.namesakes c).flatMap TableConstraint.columns

theorem kindOf_constraintType (kind : ConstraintKind) :
    kindOf (constraintType kind) = some kind := by
  cases kind <;> decide

theorem constraintType_injective (kind kind' : ConstraintKind)
    (h : constraintType kind = constraintType kind') : kind = kind' := by
  have hkind := congrArg kindOf h
  rw [kindOf_constraintType, kindOf_constraintType] at hkind
  exact Option.some.inj hkind

theorem usage_columns (c : TableConstraint) :
    c.usage.map KeyColumnUsageRow.columnName = c.columns := by
  rw [TableConstraint.usage, List.map_map]
  exact List.zipIdx_map_fst 1 c.columns

theorem usage_filter (c d : TableConstraint) :
    d.usage.filter (onClause c.row) =
      if d.catalog = c.catalog ∧ d.schema = c.schema ∧ d.name = c.name then d.usage else [] := by
  apply Grouping.filter_const
  intro kcu hkcu
  obtain ⟨_, _, rfl⟩ := List.mem_map.mp hkcu
  apply decide_eq_decide.mpr
  simp only [TableConstraint.row, eq_comm]

/-- The rows of the join for a constraint come from all that share its name in its schema. -/
theorem partners_eq (catalog : Catalog) (c : TableConstraint) :
    catalog.keyColumnUsage.filter (onClause c.row) =
      (catalog.namesakes c).flatMap TableConstraint.usage := by
  rw [Catalog.keyColumnUsage, List.filter_flatMap, Catalog.namesakes]
  simp only [usage_filter]
  induction catalog.constraints with
  | nil => rfl
  | cons d constraints ih =>
    rw [List.flatMap_cons, ih, List.filter_cons]
    split <;> rename_i h <;> simp [h]

theorem join_eq (catalog : Catalog) (schema relation : Str) :
    (Grouping.leftJoin onClause catalog.tableConstraints catalog.keyColumnUsage).filter
      (fun row => whereClause schema relation row.1) =
      (catalog.ofRelation schema relation).flatMap fun c =>
        Grouping.withPartners c.row ((catalog.namesakes c).flatMap TableConstraint.usage) := by
  have hwhere : (catalog.tableConstraints.filter (whereClause schema relation)) =
      (catalog.ofRelation schema relation).map TableConstraint.row := by
    rw [Catalog.tableConstraints, List.filter_map]
    rfl
  rw [Grouping.leftJoin_filter, hwhere, Grouping.leftJoin, List.flatMap_map]
  simp only [partners_eq]

/-! ### The rows of one key -/

variable {catalog : Catalog} {schema relation : Str}

def Answer.table (answer : Answer catalog schema relation) : List ConstraintRow :=
  answer.rows.map selected

theorem Answer.perm (answer : Answer catalog schema relation) :
    answer.rows.Perm ((catalog.ofRelation schema relation).flatMap fun c =>
      Grouping.withPartners c.row ((catalog.namesakes c).flatMap TableConstraint.usage)) := by
  rw [← join_eq]
  exact answer.rows_perm

def hasKey (name : Str) (kind : ConstraintKind) (row : JoinedRow) : Bool :=
  rowKey (selected row) = (name, constraintType kind)

/- The columns that the report has under a name and a kind. -/
def Answer.columns (answer : Answer catalog schema relation) (name : Str)
    (kind : ConstraintKind) : List Str :=
  ((answer.rows.filter (hasKey name kind)).filterMap Prod.snd).map KeyColumnUsageRow.columnName

theorem hasKey_partners (name : Str) (kind : ConstraintKind) (c : TableConstraint)
    (rows : List KeyColumnUsageRow) :
    (Grouping.withPartners c.row rows).filter (hasKey name kind) =
      if c.name = name ∧ c.kind = kind then Grouping.withPartners c.row rows else [] := by
  apply Grouping.filter_const
  intro row hrow
  have hfst := Grouping.withPartners_fst c.row rows row hrow
  apply decide_eq_decide.mpr
  simp only [rowKey, selected, hfst, TableConstraint.row, Prod.mk.injEq]
  exact and_congr_right fun _ =>
    ⟨constraintType_injective c.kind kind, fun heq => congrArg constraintType heq⟩

theorem Answer.filter_perm (answer : Answer catalog schema relation) (name : Str)
    (kind : ConstraintKind) :
    (answer.rows.filter (hasKey name kind)).Perm
      ((catalog.ofRelation schema relation).flatMap fun c =>
        if c.name = name ∧ c.kind = kind then
          Grouping.withPartners c.row ((catalog.namesakes c).flatMap TableConstraint.usage)
        else []) := by
  have h := answer.perm.filter (hasKey name kind)
  rw [List.filter_flatMap] at h
  simpa only [hasKey_partners] using h

/-- Under a key stand the columns of all constraints that the join takes for it. -/
theorem Answer.columns_perm (answer : Answer catalog schema relation) (name : Str)
    (kind : ConstraintKind) :
    (answer.columns name kind).Perm ((catalog.ofRelation schema relation).flatMap fun c =>
      if c.name = name ∧ c.kind = kind then catalog.sharedColumns c else []) := by
  have h := ((answer.filter_perm name kind).filterMap Prod.snd).map KeyColumnUsageRow.columnName
  rw [List.filterMap_flatMap, List.map_flatMap] at h
  refine h.trans (List.Perm.of_eq (List.flatMap_congr fun c _ => ?_))
  split
  · rw [Grouping.withPartners_snd, List.map_flatMap, Catalog.sharedColumns]
    exact List.flatMap_congr fun d _ => usage_columns d
  · rfl

/-! ### The report -/

theorem collect_columns (rows : List ConstraintRow) :
    Grouping.collect (fun _ => ([] : List Str)) addColumn rows =
      rows.head?.map fun _ => rows.filterMap ConstraintRow.columnName := by
  have hfold : ∀ (rows : List ConstraintRow) (columns : List Str),
      rows.foldl addColumn columns = columns ++ rows.filterMap ConstraintRow.columnName := by
    intro rows
    induction rows with
    | nil => simp
    | cons row rows ih =>
      intro columns
      rw [List.foldl_cons, ih, List.filterMap_cons, addColumn]
      cases row.columnName <;> simp
  simp only [Grouping.collect, hfold, List.nil_append]

theorem Answer.filterMap_columns (answer : Answer catalog schema relation) (name : Str)
    (kind : ConstraintKind) :
    (answer.table.filter fun row => rowKey row = (name, constraintType kind)).filterMap
      ConstraintRow.columnName = answer.columns name kind := by
  rw [Answer.table, List.filter_map, List.filterMap_map, Answer.columns, List.map_filterMap]
  rfl

/-- Every row has the key of a constraint of the relation, and every constraint has a row. -/
theorem Answer.mem_keys (answer : Answer catalog schema relation) (key : Str × Str) :
    (∃ row ∈ answer.table, rowKey row = key) ↔
      ∃ c ∈ catalog.ofRelation schema relation, key = (c.name, constraintType c.kind) := by
  constructor
  · rintro ⟨row, hrow, rfl⟩
    obtain ⟨joined, hjoined, rfl⟩ := List.mem_map.mp hrow
    obtain ⟨c, hc, hpartner⟩ := List.mem_flatMap.mp (answer.perm.mem_iff.mp hjoined)
    refine ⟨c, hc, ?_⟩
    simp only [rowKey, selected, Grouping.withPartners_fst c.row _ joined hpartner,
      TableConstraint.row]
  · rintro ⟨c, hc, rfl⟩
    obtain ⟨joined, hpartner⟩ := List.exists_mem_of_ne_nil _
      (Grouping.withPartners_ne c.row ((catalog.namesakes c).flatMap TableConstraint.usage))
    have hjoined := answer.perm.mem_iff.mpr (List.mem_flatMap.mpr ⟨c, hc, hpartner⟩)
    refine ⟨selected joined, List.mem_map_of_mem hjoined, ?_⟩
    simp only [rowKey, selected, Grouping.withPartners_fst c.row _ joined hpartner,
      TableConstraint.row]

theorem Answer.mem_grouped (answer : Answer catalog schema relation) (key : Str × Str)
    (columns : List Str) :
    (key, columns) ∈ grouped answer.table ↔
      ∃ c ∈ catalog.ofRelation schema relation, key = (c.name, constraintType c.kind) ∧
        columns = answer.columns c.name c.kind := by
  rw [grouped, Grouping.mem_group, collect_columns, Option.map_eq_some_iff]
  constructor
  · rintro ⟨row, hhead, rfl⟩
    obtain ⟨hrow, hkey⟩ := List.mem_filter.mp (List.mem_of_mem_head? hhead)
    obtain ⟨c, hc, rfl⟩ := (answer.mem_keys key).mp ⟨row, hrow, of_decide_eq_true hkey⟩
    exact ⟨c, hc, rfl, answer.filterMap_columns c.name c.kind⟩
  · rintro ⟨c, hc, rfl, rfl⟩
    obtain ⟨row, hrow, hkey⟩ := (answer.mem_keys _).mpr ⟨c, hc, rfl⟩
    have hmem : row ∈ answer.table.filter fun row => rowKey row = (c.name, constraintType c.kind) :=
      List.mem_filter.mpr ⟨hrow, decide_eq_true hkey⟩
    rw [← answer.filterMap_columns c.name c.kind]
    cases hrows : answer.table.filter fun row => rowKey row = (c.name, constraintType c.kind) with
    | nil =>
      rw [hrows] at hmem
      exact absurd hmem List.not_mem_nil
    | cons first rest => exact ⟨first, rfl, rfl⟩

theorem Answer.mem_report (answer : Answer catalog schema relation)
    (entry : Str × ConstraintKind × List Str) :
    entry ∈ (listConstraints answer.table).map keyColumns ↔
      ∃ c ∈ catalog.ofRelation schema relation,
        entry = (c.name, c.kind, answer.columns c.name c.kind) := by
  simp only [listConstraints, List.mem_map, List.mem_filterMap]
  constructor
  · rintro ⟨constraint, ⟨⟨key, columns⟩, hmem, hkind⟩, rfl⟩
    obtain ⟨c, hc, rfl, rfl⟩ := (answer.mem_grouped key columns).mp hmem
    simp only [kindOf_constraintType, Option.map_some, Option.some.injEq] at hkind
    subst hkind
    exact ⟨c, hc, rfl⟩
  · rintro ⟨c, hc, rfl⟩
    refine ⟨plainInfo c.name c.kind (answer.columns c.name c.kind),
      ⟨_, (answer.mem_grouped _ _).mpr ⟨c, hc, rfl, rfl⟩, ?_⟩, rfl⟩
    simp only [kindOf_constraintType, Option.map_some]

/-- No name is reported twice with one kind. -/
theorem Answer.report_nodup (answer : Answer catalog schema relation) :
    ((listConstraints answer.table).map fun constraint =>
      (constraint.name, constraint.kind)).Nodup := by
  have hkeys : (grouped answer.table).Pairwise fun entry entry' => entry.1 ≠ entry'.1 :=
    List.pairwise_map.mp (Grouping.keys_group rowKey (fun _ => []) addColumn answer.table)
  rw [listConstraints, List.Nodup, List.pairwise_map, List.pairwise_filterMap]
  refine hkeys.imp_of_mem ?_
  rintro ⟨key, columns⟩ ⟨key', columns'⟩ hentry hentry' hne constraint h constraint' h' heq
  obtain ⟨c, -, rfl, -⟩ := (answer.mem_grouped key columns).mp hentry
  obtain ⟨c', -, rfl, -⟩ := (answer.mem_grouped key' columns').mp hentry'
  simp only [kindOf_constraintType, Option.map_some, Option.some.injEq] at h h'
  subst h h'
  obtain ⟨hname, hkind⟩ := Prod.mk.inj heq
  apply hne
  rw [Prod.mk.injEq]
  exact ⟨hname, congrArg constraintType hkind⟩

end FsspecDb.Constraints
