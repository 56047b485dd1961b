import FsspecDb.Servers.MySqlIndexes

/-!
# The indexes of PostgreSQL (postgres.rs, `list_indexes`)

The query unnests the key of an index into the numbers of its columns and joins their names. What
it reports of the indexes of a table is compared with what MySQL does.
-/

namespace FsspecDb.Servers.Postgres
open Text Bridge

/-- An index of `pg_index` with its class. The number 0 in the key stands for an expression. -/
structure PgIndex where
  relname : Str
  indisunique : Bool
  amname : Str
  indkey : List Int
  indkey_ne : indkey ≠ []

/-- A table with the rows of `pg_attribute`. -/
structure Table where
  attributes : List (Int × Str)
  attnums_nodup : (attributes.map Prod.fst).Nodup
  indexes : List PgIndex
  names_nodup : (indexes.map (·.relname)).Nodup

variable (table : Table)

def attname (attnum : Int) : Option Str :=
  (table.attributes.find? fun att => att.1 = attnum).map Prod.snd

/-- The index as it was declared. -/
def declaredIndex (ix : PgIndex) : ServerIndex where
  name := ix.relname
  unique := ix.indisunique
  method := ix.amname
  parts := ix.indkey.map (attname table)
  parts_ne := fun h => ix.indkey_ne (List.map_eq_nil_iff.mp h)

/-! ### The query -/

abbrev IndexRow := (PgIndex × Int × Nat) × Option (Int × Str)

/- `unnest(ix.indkey) WITH ORDINALITY`. -/
def unnest (ix : PgIndex) : List (PgIndex × Int × Nat) :=
  (ix.indkey.zipIdx 1).map fun (attnum, ordinality) => (ix, attnum, ordinality)

def onAttnum (row : PgIndex × Int × Nat) (att : Int × Str) : Bool := att.1 = row.2.1

def joined : List IndexRow :=
  Grouping.leftJoin onAttnum (table.indexes.flatMap unnest) table.attributes

def indexKey (row : IndexRow) : Str × Bool × Str :=
  (row.1.1.relname, row.1.1.indisunique, row.1.1.amname)

def ordinality (row : IndexRow) : Nat := row.1.2.2

def rowName (row : IndexRow) : Option Str := row.2.map Prod.snd

def indexInfo (entry : (Str × Bool × Str) × List IndexRow) : IndexInfo where
  name := entry.1.1
  columns := splitCsv ((stringAgg ordinality rowName entry.2).getD [])
  unique := entry.1.2.1
  method := some entry.1.2.2

/-- `list_indexes` behind its check of the relation. -/
def listIndexes (rows : List IndexRow) : List IndexInfo :=
  (Grouping.groups indexKey rows).map indexInfo

/-! ### The report -/

/- What is reported of an index. -/
def toldIndex (index : ServerIndex) : IndexInfo :=
  { index.declared with columns := splitCsv (join [','] index.columns) }

def rowsOf (ix : PgIndex) : List IndexRow :=
  Grouping.leftJoin onAttnum (unnest ix) table.attributes

theorem filter_attnum (attributes : List (Int × Str)) (hnodup : (attributes.map Prod.fst).Nodup)
    (attnum : Int) : (attributes.filter fun att => att.1 = attnum).length ≤ 1 := by
  rw [← List.length_map Prod.fst]
  have hnames := hnodup.sublist (List.filter_sublist
    (p := fun att : Int × Str => att.1 = attnum).map Prod.fst)
  suffices h : _ ⊆ [attnum] from (List.subperm_of_subset hnames h).length_le
  intro other hother
  obtain ⟨att, hmem, rfl⟩ := List.mem_map.mp hother
  exact List.mem_singleton.mpr (of_decide_eq_true (List.mem_filter.mp hmem).2)

/- A number has one column at most, so the join has a row for each place of the key. -/
theorem rowsOf_eq (ix : PgIndex) :
    rowsOf table ix = (ix.indkey.zipIdx 1).map fun entry =>
      ((ix, entry.1, entry.2), table.attributes.find? fun att => att.1 = entry.1) := by
  rw [rowsOf, Grouping.leftJoin, unnest, List.flatMap_map, List.map_eq_flatMap]
  apply List.flatMap_congr
  intro entry _
  change Grouping.withPartners _ (table.attributes.filter fun att => att.1 = entry.1) = _
  rw [Grouping.withPartners_one _ _ (filter_attnum _ table.attnums_nodup entry.1),
    List.head?_filter]

theorem rowsOf_key (ix : PgIndex) (row : IndexRow) (h : row ∈ rowsOf table ix) :
    indexKey row = (ix.relname, ix.indisunique, ix.amname) := by
  rw [rowsOf_eq] at h
  obtain ⟨entry, _, rfl⟩ := List.mem_map.mp h
  rfl

theorem rowsOf_ne (ix : PgIndex) : rowsOf table ix ≠ [] := by
  rw [rowsOf_eq]
  intro h
  exact ix.indkey_ne (List.zipIdx_eq_nil_iff.mp (List.map_eq_nil_iff.mp h))

theorem indexInfo_eq (ix : PgIndex) (own : List IndexRow) (hown : own.Perm (rowsOf table ix)) :
    indexInfo ((ix.relname, ix.indisunique, ix.amname), own) =
      toldIndex (declaredIndex table ix) := by
  rw [rowsOf_eq] at hown
  have hcolumns : ordered ordinality rowName own = ix.indkey.filterMap (attname table) :=
    ordered_zipIdx ordinality rowName own ix.indkey (attname table) 1 _ (fun _ => rfl)
      (fun _ => rfl) hown
  have hindex : (declaredIndex table ix).columns = ix.indkey.filterMap (attname table) := by
    rw [ServerIndex.columns, declaredIndex, List.filterMap_map]
    rfl
  rw [indexInfo, stringAgg_getD, hcolumns, toldIndex, hindex]
  rfl

/-- In whatever order the rows come, each index is reported once. -/
theorem listIndexes_perm (rows : List IndexRow) (hrows : rows.Perm (joined table)) :
    (listIndexes rows).Perm ((table.indexes.map (declaredIndex table)).map toldIndex) := by
  rw [List.map_map]
  have hkeys : (table.indexes.map fun ix => (ix.relname, ix.indisunique, ix.amname)).Nodup := by
    apply List.Nodup.of_map Prod.fst
    rw [List.map_map]
    exact table.names_nodup
  have hjoined : joined table = table.indexes.flatMap (rowsOf table) := List.flatMap_assoc
  rw [hjoined] at hrows
  exact Grouping.groups_map_perm table.indexes (rowsOf table) indexKey _ hkeys
    (fun ix _ row hrow => rowsOf_key table ix row hrow) (fun ix _ => rowsOf_ne table ix) rows hrows
    indexInfo _ fun ix _ own hown => indexInfo_eq table ix own hown

theorem toldIndex_iff (index : ServerIndex) :
    toldIndex index = index.declared ↔ CommaFree index.columns := by
  rw [← splitCsv_join_iff]
  exact index.declared_iff _

/-! ### The same indexes on both servers -/

/- An index on two columns and an expression. -/
def wide : Table where
  attributes := [(1, "first_name".toList), (2, "last_name".toList)]
  attnums_nodup := by decide
  indexes := [⟨"by_name".toList, false, "btree".toList, [2, 0, 1], by decide⟩]
  names_nodup := by decide

end FsspecDb.Servers.Postgres
