import FsspecDb.Constraints.InformationSchema
import FsspecDb.Servers.MySqlIndexes

/-!
# The constraints of MySQL (mysql.rs, `list_constraints`)

The query joins three views on the schema, the table and the name of a constraint, and has one row
for each name and type, with the columns in one text.
-/

namespace FsspecDb.Servers.MySql
open Text Bridge

/-! ### Constraints -/

/-- A row of `information_schema.table_constraints`. -/
structure TableConstraintsRow where
  constraintSchema : Str
  constraintName : Str
  tableSchema : Str
  tableName : Str
  constraintType : Str

/-- A row of `information_schema.key_column_usage`. -/
structure KeyColumnUsageRow where
  constraintSchema : Str
  constraintName : Str
  tableSchema : Str
  tableName : Str
  columnName : Str
  ordinalPosition : Nat
  referencedRelation : Option (Str × Str)

/-- A row of `information_schema.check_constraints`. -/
structure CheckConstraintsRow where
  constraintSchema : Str
  constraintName : Str
  checkClause : Str

def tableConstraint (c : ServerConstraint) : TableConstraintsRow :=
  ⟨c.schema, c.name, c.schema, c.table, Constraints.constraintType c.kind⟩

def usage (c : ServerConstraint) : List KeyColumnUsageRow :=
  (c.columns.zipIdx 1).map fun (column, position) =>
    ⟨c.schema, c.name, c.schema, c.table, column, position, c.references⟩

def checks (c : ServerConstraint) : List CheckConstraintsRow :=
  c.check.toList.map fun clause => ⟨c.schema, c.name, clause⟩

/-- The names of MySQL, which are compared by `fold`, without their case: in a table they are
distinct for each type of constraint, and those of the checks are distinct in the schema. Checks
have no key columns. -/
structure Catalog where
  fold : Str → Str
  constraints : List ServerConstraint
  keys_nodup : (constraints.map fun c => (c.schema, c.table, fold c.name, c.kind)).Nodup
  columns_nil : ∀ c ∈ constraints, c.columns = [] ↔ c.kind = .Check
  checks_own : ∀ c ∈ constraints, ∀ d ∈ constraints, c.kind = .Check → d.kind = .Check →
    c.schema = d.schema → fold c.name = fold d.name → c = d

/-! ### The query -/

abbrev JoinedRow := (TableConstraintsRow × Option KeyColumnUsageRow) × Option CheckConstraintsRow

def onUsage (fold : Str → Str) (tc : TableConstraintsRow) (kcu : KeyColumnUsageRow) : Bool :=
  tc.constraintSchema = kcu.constraintSchema ∧
    fold tc.constraintName = fold kcu.constraintName ∧
    tc.tableSchema = kcu.tableSchema ∧ tc.tableName = kcu.tableName

def onCheck (fold : Str → Str) (row : TableConstraintsRow × Option KeyColumnUsageRow)
    (cc : CheckConstraintsRow) : Bool :=
  row.1.constraintSchema = cc.constraintSchema ∧
    fold row.1.constraintName = fold cc.constraintName

def whereRelation (schema relation : Str) (tc : TableConstraintsRow) : Bool :=
  tc.tableSchema = schema ∧ tc.tableName = relation

def joined (catalog : Catalog) (schema relation : Str) : List JoinedRow :=
  (Grouping.leftJoin (onCheck catalog.fold)
    (Grouping.leftJoin (onUsage catalog.fold) (catalog.constraints.map tableConstraint)
      (catalog.constraints.flatMap usage))
    (catalog.constraints.flatMap checks)).filter fun row => whereRelation schema relation row.1.1

/- The names of one type are distinct without their case, so a group has one name. -/
def rowKey (row : JoinedRow) : Str × Str := (row.1.1.constraintName, row.1.1.constraintType)

/-! ### The code -/

def constraintKind (constraintType : Str) : Except DbError ConstraintKind :=
  if constraintType = "PRIMARY KEY".toList then .ok .PrimaryKey
  else if constraintType = "FOREIGN KEY".toList then .ok .ForeignKey
  else if constraintType = "UNIQUE".toList then .ok .Unique
  else if constraintType = "CHECK".toList then .ok .Check
  else .error (.Other ("unknown MySQL constraint type: ".toList ++ constraintType))

def ordinalPosition (row : JoinedRow) : Nat := (row.1.2.map (·.ordinalPosition)).getD 0

def columnName (row : JoinedRow) : Option Str := row.1.2.map (·.columnName)

/- `CASE WHEN kcu.referenced_table_name IS NOT NULL`. -/
def referencedText (row : JoinedRow) : Option Str :=
  (row.1.2.bind (·.referencedRelation)).map relationText

def checkClause (row : JoinedRow) : Option Str := row.2.map (·.checkClause)

def constraintRow (limit : Nat) (kind : ConstraintKind) (name : Str) (rows : List JoinedRow) :
    ConstraintInfo where
  name := name
  kind := kind
  columns := splitCsv ((groupConcat ordinalPosition columnName rows limit).getD [])
  references := if kind = .ForeignKey then maxText (rows.filterMap referencedText) else none
  expr := if kind = .Check then maxText (rows.filterMap checkClause) else none

/-- `list_constraints` behind its check of the relation. -/
def listConstraints (limit : Nat) (rows : List JoinedRow) :
    Except DbError (List ConstraintInfo) :=
  (Grouping.groups rowKey rows).mapM fun entry => do
    let kind ← constraintKind entry.1.2
    return constraintRow limit kind entry.1.1 entry.2

/-! ### The rows of a constraint -/

theorem constraintKind_type (kind : ConstraintKind) :
    constraintKind (Constraints.constraintType kind) = .ok kind := by
  cases kind <;> decide

section
variable (catalog : Catalog)

def usageOf (c : ServerConstraint) : List KeyColumnUsageRow :=
  (catalog.constraints.flatMap usage).filter (onUsage catalog.fold (tableConstraint c))

def checksOf (c : ServerConstraint) : List CheckConstraintsRow :=
  (catalog.constraints.flatMap checks).filter fun cc =>
    c.schema = cc.constraintSchema ∧ catalog.fold c.name = catalog.fold cc.constraintName

def rowsOf (c : ServerConstraint) : List JoinedRow :=
  (Grouping.withPartners (tableConstraint c) (usageOf catalog c)).flatMap fun row =>
    Grouping.withPartners row (checksOf catalog c)

theorem joined_eq (schema relation : Str) :
    joined catalog schema relation =
      (ofRelation catalog.constraints schema relation).flatMap (rowsOf catalog) := by
  have hwhere : (catalog.constraints.map tableConstraint).filter (whereRelation schema relation) =
      (ofRelation catalog.constraints schema relation).map tableConstraint := by
    rw [List.filter_map]
    rfl
  rw [joined,
    Grouping.leftJoin_filter (onCheck catalog.fold) fun row => whereRelation schema relation row.1,
    Grouping.leftJoin_filter (onUsage catalog.fold) (whereRelation schema relation), hwhere,
    Grouping.leftJoin, Grouping.leftJoin, List.flatMap_map, List.flatMap_assoc]
  apply List.flatMap_congr
  intro c _
  apply List.flatMap_congr
  intro row hrow
  have hfst := Grouping.withPartners_fst _ _ row hrow
  have hon : onCheck catalog.fold row = fun cc => decide
      (c.schema = cc.constraintSchema ∧
        catalog.fold c.name = catalog.fold cc.constraintName) := by
    funext cc
    rw [onCheck, hfst]
    rfl
  rw [hon]
  rfl

theorem filter_checks (c d : ServerConstraint) :
    (checks d).filter (fun cc => c.schema = cc.constraintSchema ∧
        catalog.fold c.name = catalog.fold cc.constraintName) =
      if c.schema = d.schema ∧ catalog.fold c.name = catalog.fold d.name then checks d
      else [] := by
  apply Grouping.filter_const
  intro cc hcc
  obtain ⟨clause, _, rfl⟩ := List.mem_map.mp hcc
  rfl

theorem filter_usage (c d : ServerConstraint) :
    (usage d).filter (onUsage catalog.fold (tableConstraint c)) =
      if c.schema = d.schema ∧ catalog.fold c.name = catalog.fold d.name ∧ c.table = d.table then
        usage d
      else [] := by
  apply Grouping.filter_const
  intro kcu hkcu
  obtain ⟨entry, _, rfl⟩ := List.mem_map.mp hkcu
  apply decide_eq_decide.mpr
  constructor
  · exact fun h => ⟨h.1, h.2.1, h.2.2.2⟩
  · exact fun h => ⟨h.1, h.2.1, h.1, h.2.2⟩

theorem checks_nil (c : ServerConstraint) (h : c.kind ≠ .Check) : checks c = [] := by
  have hnone : c.check = none := by
    rw [← Option.not_isSome_iff_eq_none, c.check_some]
    exact h
  rw [checks, hnone]
  rfl

theorem constraints_nodup : catalog.constraints.Nodup := catalog.keys_nodup.of_map _

theorem checksOf_check (c d : ServerConstraint) (hd : d ∈ catalog.constraints)
    (hkind : d.kind = .Check)
    (hsame : c.schema = d.schema ∧ catalog.fold c.name = catalog.fold d.name) :
    checksOf catalog c = checks d := by
  rw [checksOf, List.filter_flatMap,
    Grouping.flatMap_single _ (constraints_nodup catalog) _ d hd, filter_checks catalog,
    if_pos hsame]
  intro other hother hne
  rw [filter_checks catalog]
  split
  · next hboth =>
    apply checks_nil
    intro hcheck
    exact hne (catalog.checks_own other hother d hd hcheck hkind (hboth.1.symm.trans hsame.1)
      (hboth.2.symm.trans hsame.2))
  · rfl

/- A constraint has at most one clause, so no column is doubled. -/
theorem checksOf_le (c : ServerConstraint) : (checksOf catalog c).length ≤ 1 := by
  by_cases h : ∃ d ∈ catalog.constraints, d.kind = .Check ∧ c.schema = d.schema ∧
      catalog.fold c.name = catalog.fold d.name
  · obtain ⟨d, hd, hkind, hsame⟩ := h
    rw [checksOf_check catalog c d hd hkind hsame, checks, List.length_map]
    exact Option.length_toList_le
  · have hnil : checksOf catalog c = [] := by
      rw [checksOf, List.filter_flatMap, List.flatMap_eq_nil_iff]
      intro d hd
      rw [filter_checks catalog]
      split
      · next hsame => exact checks_nil d fun hkind => h ⟨d, hd, hkind, hsame⟩
      · rfl
    rw [hnil]
    exact Nat.zero_le 1

theorem rowsOf_eq (c : ServerConstraint) :
    rowsOf catalog c = (Grouping.withPartners (tableConstraint c) (usageOf catalog c)).map
      fun row => (row, (checksOf catalog c).head?) := by
  rw [rowsOf, List.map_eq_flatMap]
  apply List.flatMap_congr
  intro row _
  exact Grouping.withPartners_one row _ (checksOf_le catalog c)

theorem rowsOf_key (c : ServerConstraint) (row : JoinedRow) (h : row ∈ rowsOf catalog c) :
    rowKey row = (c.name, Constraints.constraintType c.kind) := by
  rw [rowsOf_eq] at h
  obtain ⟨inner, hinner, rfl⟩ := List.mem_map.mp h
  rw [rowKey, Grouping.withPartners_fst _ _ inner hinner]
  rfl

theorem rowsOf_ne (c : ServerConstraint) : rowsOf catalog c ≠ [] := by
  rw [rowsOf_eq]
  intro h
  exact Grouping.withPartners_ne _ _ (List.map_eq_nil_iff.mp h)

/- The columns in the rows are those of all keys with the name. -/
theorem rowsOf_columns (c : ServerConstraint) :
    (rowsOf catalog c).filterMap columnName = (usageOf catalog c).map (·.columnName) := by
  rw [rowsOf_eq, List.filterMap_map]
  have hvalue : columnName ∘ (fun row => (row, (checksOf catalog c).head?)) =
      fun row => row.2.map (·.columnName) := rfl
  rw [hvalue, ← List.map_filterMap, Grouping.withPartners_snd]

/-! ### Constraints with names of their own -/

/-- No other constraint of the table has the name. -/
def OwnName (c : ServerConstraint) : Prop :=
  ∀ d ∈ catalog.constraints, d.schema = c.schema → d.table = c.table →
    catalog.fold d.name = catalog.fold c.name → d = c

theorem usageOf_own (c : ServerConstraint) (hc : c ∈ catalog.constraints)
    (hown : OwnName catalog c) : usageOf catalog c = usage c := by
  rw [usageOf, List.filter_flatMap,
    Grouping.flatMap_single _ (constraints_nodup catalog) _ c hc, filter_usage catalog, if_pos]
  · exact ⟨rfl, rfl, rfl⟩
  · intro d hd hne
    rw [filter_usage catalog, if_neg]
    exact fun h => hne (hown d hd h.1.symm h.2.2.symm h.2.1.symm)

theorem usage_columns (c : ServerConstraint) : (usage c).map (·.columnName) = c.columns := by
  rw [usage, List.map_map]
  exact List.zipIdx_map_fst 1 c.columns

/- The key columns of the namesakes are columns of the relation. -/
theorem usageOf_commaFree {schema relation : Str} (c : ServerConstraint)
    (hc : c ∈ ofRelation catalog.constraints schema relation)
    (hfree : ∀ d ∈ ofRelation catalog.constraints schema relation, CommaFree d.columns) :
    CommaFree ((usageOf catalog c).map (·.columnName)) := by
  intro name hname
  obtain ⟨kcu, hkcu, rfl⟩ := List.mem_map.mp hname
  obtain ⟨hkcu, hon⟩ := List.mem_filter.mp hkcu
  obtain ⟨d, hd, hkcu⟩ := List.mem_flatMap.mp hkcu
  obtain ⟨entry, hentry, rfl⟩ := List.mem_map.mp hkcu
  obtain ⟨hschema, _, _, htable⟩ := of_decide_eq_true hon
  obtain ⟨_, hschema', htable'⟩ := (mem_ofRelation _ _ _ c).mp hc
  exact hfree d ((mem_ofRelation _ _ _ d).mpr
    ⟨hd, hschema.symm.trans hschema', htable.symm.trans htable'⟩) _
    (List.fst_mem_of_mem_zipIdx hentry)

/- Each of two namesakes has the columns of both. -/
theorem usageOf_length (c d : ServerConstraint) (hc : c ∈ catalog.constraints)
    (hd : d ∈ catalog.constraints) (hne : d ≠ c)
    (hsame : c.schema = d.schema ∧ catalog.fold c.name = catalog.fold d.name ∧
      c.table = d.table) :
    c.columns.length + d.columns.length ≤ (usageOf catalog c).length := by
  have hpair := Grouping.length_flatMap_pair catalog.constraints
    (fun other => (usage other).filter (onUsage catalog.fold (tableConstraint c))) c d hc hd
    hne.symm
  rw [← List.filter_flatMap, ← usageOf, filter_usage catalog, filter_usage catalog,
    if_pos ⟨rfl, rfl, rfl⟩, if_pos hsame] at hpair
  rwa [← usage_columns c, ← usage_columns d, List.length_map, List.length_map]

section
variable (c : ServerConstraint) (hc : c ∈ catalog.constraints) (hown : OwnName catalog c)
  (own : List JoinedRow) (hrows : own.Perm (rowsOf catalog c))
include hc hown hrows

theorem ordered_own : ordered ordinalPosition columnName own = c.columns := by
  by_cases hempty : c.columns = []
  · have hnone : (rowsOf catalog c).filterMap columnName = [] := by
      rw [rowsOf_columns, usageOf_own catalog c hc hown, usage_columns, hempty]
    rw [hempty]
    apply List.perm_nil.mp
    rw [← hnone]
    exact (ordered_perm ordinalPosition columnName own).trans (hrows.filterMap columnName)
  · have husage : usage c ≠ [] := fun h => hempty (by rw [← usage_columns, h]; rfl)
    have hpartners : Grouping.withPartners (tableConstraint c) (usage c) =
        (usage c).map fun kcu => (tableConstraint c, some kcu) := by
      cases hcases : usage c with
      | nil => exact absurd hcases husage
      | cons kcu rest => rfl
    rw [rowsOf_eq, usageOf_own catalog c hc hown, hpartners, usage, List.map_map, List.map_map]
      at hrows
    rw [ordered_zipIdx ordinalPosition columnName own c.columns some 1 _ (fun _ => rfl)
      (fun _ => rfl) hrows, List.filterMap_some]

theorem references_own :
    (if c.kind = .ForeignKey then maxText (own.filterMap referencedText) else none) =
      c.references.map relationText := by
  split
  · next hkind =>
    obtain ⟨reference, hreference⟩ := Option.isSome_iff_exists.mp (c.references_some.mpr hkind)
    have hcolumns : c.columns ≠ [] := fun h => by
      have hcheck := (catalog.columns_nil c hc).mp h
      rw [hkind] at hcheck
      cases hcheck
    have htexts : ((rowsOf catalog c).filterMap referencedText) =
        (usage c).map fun _ => relationText reference := by
      rw [rowsOf_eq, usageOf_own catalog c hc hown, List.filterMap_map]
      have hvalue : referencedText ∘ (fun row => (row, (checksOf catalog c).head?)) =
          fun row => row.2.bind fun kcu => kcu.referencedRelation.map relationText := by
        funext row
        exact Option.map_bind
      rw [hvalue, ← List.filterMap_filterMap, Grouping.withPartners_snd, ← List.filterMap_eq_map]
      apply List.filterMap_congr
      intro kcu hkcu
      obtain ⟨entry, _, rfl⟩ := List.mem_map.mp hkcu
      dsimp only
      rw [hreference]
      rfl
    have hperm := (hrows.filterMap referencedText)
    rw [htexts] at hperm
    rw [hreference, Option.map_some]
    apply maxText_same
    · intro hnil
      rw [hnil] at hperm
      have husage := List.map_eq_nil_iff.mp (List.nil_perm.mp hperm)
      exact hcolumns (by rw [← usage_columns, husage]; rfl)
    · intro v hv
      obtain ⟨_, _, rfl⟩ := List.mem_map.mp (hperm.mem_iff.mp hv)
      rfl
  · next hkind =>
    have hnone : c.references = none := by
      rw [← Option.not_isSome_iff_eq_none, c.references_some]
      exact hkind
    rw [hnone]
    rfl

theorem expr_own :
    (if c.kind = .Check then maxText (own.filterMap checkClause) else none) = c.check := by
  split
  · next hkind =>
    obtain ⟨clause, hclause⟩ := Option.isSome_iff_exists.mp (c.check_some.mpr hkind)
    have hcolumns : c.columns = [] := (catalog.columns_nil c hc).mpr hkind
    have husage : usageOf catalog c = [] := by
      rw [usageOf_own catalog c hc hown, usage, hcolumns]
      rfl
    have hchecks : (checksOf catalog c).head? = some ⟨c.schema, c.name, clause⟩ := by
      rw [checksOf_check catalog c c hc hkind ⟨rfl, rfl⟩, checks, hclause]
      rfl
    rw [rowsOf_eq, husage, hchecks] at hrows
    rw [List.perm_singleton.mp hrows, hclause]
    exact maxText_same [clause] clause (List.cons_ne_nil _ _) fun v hv => List.mem_singleton.mp hv
  · next hkind =>
    have hnone : c.check = none := by
      rw [← Option.not_isSome_iff_eq_none, c.check_some]
      exact hkind
    rw [hnone]

end

end

end FsspecDb.Servers.MySql
