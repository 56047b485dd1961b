import FsspecDb.Servers.Declared

/-!
# The indexes of MySQL (mysql.rs, `list_indexes`)

The query has one row for each index, with the columns in one text.
-/

namespace FsspecDb.Servers.MySql
open Text Bridge

/- `MAX` over texts, which are all the same where the queries use it. -/
def maxText (values : List Str) : Option Str :=
  values.head?.map fun first => values.foldl
    (fun best value => if Utf8.encode best ≤ Utf8.encode value then value else best) first

theorem maxText_same (values : List Str) (value : Str) (hne : values ≠ [])
    (h : ∀ v ∈ values, v = value) : maxText values = some value := by
  have hfold : values.foldl
      (fun best value => if Utf8.encode best ≤ Utf8.encode value then value else best) value =
        value := by
    clear hne
    induction values with
    | nil => rfl
    | cons v values ih =>
      rw [List.forall_mem_cons] at h
      rw [List.foldl_cons, h.1, ite_self]
      exact ih h.2
  cases values with
  | nil => exact absurd rfl hne
  | cons v values =>
    obtain rfl := h v List.mem_cons_self
    rw [maxText, List.head?_cons, Option.map_some, hfold]

/-! ### Indexes -/

/-- A row of `information_schema.statistics`. -/
structure StatisticsRow where
  indexName : Str
  nonUnique : Nat
  indexType : Str
  columnName : Option Str
  seqInIndex : Nat

def statistics (index : ServerIndex) : List StatisticsRow :=
  (index.parts.zipIdx 1).map fun (part, seq) =>
    ⟨index.name, if index.unique then 0 else 1, index.method, part, seq⟩

/- A group of the rows by `index_name`. -/
def indexInfo (limit : Nat) (entry : Str × List StatisticsRow) : IndexInfo where
  name := entry.1
  columns := splitCsv ((groupConcat (·.seqInIndex) (·.columnName) entry.2 limit).getD [])
  unique := (entry.2.map (·.nonUnique)).min? = some 0
  method := maxText (entry.2.map (·.indexType))

/-- `list_indexes` behind its check of the relation. -/
def listIndexes (limit : Nat) (rows : List StatisticsRow) : List IndexInfo :=
  (Grouping.groups (·.indexName) rows).map (indexInfo limit)

/- What is reported of an index. -/
def toldIndex (limit : Nat) (index : ServerIndex) : IndexInfo :=
  { index.declared with columns := splitCsv (truncate limit (join [','] index.columns)) }

theorem min_same (values : List Nat) (n : Nat) (hne : values ≠ []) (h : ∀ v ∈ values, v = n) :
    values.min? = some n := by
  obtain ⟨v, hv⟩ := List.exists_mem_of_ne_nil values hne
  rw [List.min?_eq_some_iff]
  exact ⟨h v hv ▸ hv, fun w hw => Nat.le_of_eq (h w hw).symm⟩

theorem indexInfo_eq (limit : Nat) (index : ServerIndex) (own : List StatisticsRow)
    (hown : own.Perm (statistics index)) :
    indexInfo limit (index.name, own) = toldIndex limit index := by
  have hrow (row : StatisticsRow) (h : row ∈ own) :
      row.nonUnique = (if index.unique then 0 else 1) ∧ row.indexType = index.method := by
    obtain ⟨entry, _, rfl⟩ := List.mem_map.mp (hown.mem_iff.mp h)
    exact ⟨rfl, rfl⟩
  have hne : own ≠ [] := by
    rintro rfl
    have hnil := List.map_eq_nil_iff.mp (List.nil_perm.mp hown)
    exact index.parts_ne (List.zipIdx_eq_nil_iff.mp hnil)
  have hunique : (own.map (·.nonUnique)).min? = some (if index.unique then 0 else 1) := by
    refine min_same _ _ (by simpa using hne) fun v hv => ?_
    obtain ⟨row, hmem, rfl⟩ := List.mem_map.mp hv
    exact (hrow row hmem).1
  have hmethod : maxText (own.map (·.indexType)) = some index.method := by
    refine maxText_same _ _ (by simpa using hne) fun v hv => ?_
    obtain ⟨row, hmem, rfl⟩ := List.mem_map.mp hv
    exact (hrow row hmem).2
  have hcolumns : ordered (·.seqInIndex) (·.columnName) own = index.columns :=
    ordered_zipIdx _ _ own index.parts id 1 _ (fun _ => rfl) (fun _ => rfl) hown
  rw [indexInfo, groupConcat_getD, hcolumns, hunique, hmethod, toldIndex, ServerIndex.declared]
  cases index.unique <;> rfl

/-- In whatever order the rows come, each index is reported once. -/
theorem listIndexes_perm (limit : Nat) (indexes : List ServerIndex)
    (hnames : (indexes.map (·.name)).Nodup) (rows : List StatisticsRow)
    (hrows : rows.Perm (indexes.flatMap statistics)) :
    (listIndexes limit rows).Perm (indexes.map (toldIndex limit)) := by
  refine Grouping.groups_map_perm indexes statistics (·.indexName) (·.name) hnames ?_ ?_ rows hrows
    (indexInfo limit) (toldIndex limit) fun index _ own hown => indexInfo_eq limit index own hown
  · intro index _ row hrow
    obtain ⟨entry, _, rfl⟩ := List.mem_map.mp hrow
    rfl
  · intro index _ hnil
    exact index.parts_ne (List.zipIdx_eq_nil_iff.mp (List.map_eq_nil_iff.mp hnil))

theorem toldIndex_iff (limit : Nat) (index : ServerIndex) :
    toldIndex limit index = index.declared ↔
      CommaFree index.columns ∧ Fits limit index.columns := by
  rw [Fits, ← splitCsv_truncate_iff]
  exact index.declared_iff _

end FsspecDb.Servers.MySql
