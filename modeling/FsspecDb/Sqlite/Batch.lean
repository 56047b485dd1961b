import FsspecDb.Sqlite.Rank
import Mathlib.Data.List.Forall2

/-!
# The batch of a chunk (sqlite.rs, `sqlite_rows_to_batch`)

The conversion goes over the rows twice: once to collect the type names of each
column, once to decode the values. It always succeeds on rows as wide as the
columns, and `columnTypes` says which types it gives them.
-/

namespace FsspecDb.Sqlite
open Text

def columnIndexOutOfBounds : DbError := .Other "column index out of bounds".toList

/- `for (index, x) in columns.iter_mut().enumerate()` over the values of a row. -/
def eachColumn {α : Type} (f : α → SqliteValue → Except DbError α) :
    List α → SqliteRow → Except DbError (List α)
  | [], _ => .ok []
  | _ :: _, [] => .error columnIndexOutOfBounds
  | x :: xs, raw :: row => do
    let y ← f x raw
    let ys ← eachColumn f xs row
    pure (y :: ys)

/-- `sqlite_rows_to_batch`; `columnMetadata` is the name and the declared type
name of each column. -/
def sqliteRowsToBatch (floats : FloatText) (columnMetadata : List (Str × Str))
    (rows : List SqliteRow) : Except DbError RecordBatch := do
  let typeNames ← rows.foldlM (eachColumn fun names raw => pure (pushName names raw))
    (columnMetadata.map fun column => [column.2])
  let columns ← rows.foldlM (eachColumn (ColumnValues.push floats))
    (typeNames.map ColumnValues.new)
  let fields := List.zipWith (fun column values => Field.mk column.1 (ColumnValues.dataType values)
    true) columnMetadata columns
  RecordBatch.tryNew fields (columns.map ColumnValues.finish)

/-- `sqlite_schema`, the schema of a result without rows. -/
def sqliteSchema (columnMetadata : List (Str × Str)) : Schema :=
  columnMetadata.map fun column => ⟨column.1, (ColumnValues.new [column.2]).dataType, true⟩

/- A row as wide as the columns, under a function that never fails. -/
theorem eachColumn_pure {α : Type} (g : α → SqliteValue → α) (xs : List α) (row : SqliteRow)
    (h : row.length = xs.length) :
    eachColumn (fun x raw => pure (g x raw)) xs row = .ok (List.zipWith g xs row) := by
  induction xs generalizing row with
  | nil => rfl
  | cons x xs ih =>
    cases row with
    | nil => simp only [List.length_nil, List.length_cons, reduceCtorEq] at h
    | cons raw row =>
      have htail := ih row (by simpa only [List.length_cons, Nat.add_right_cancel_iff] using h)
      simp only [eachColumn, htail]
      rfl

/-! ### The types of a chunk's columns -/

def widen (ranks : List Nat) (row : SqliteRow) : List Nat :=
  List.zipWith max ranks (row.map valueRank)

/-- The ranks of the columns after the rows: those of the declared type names,
widened by every value. -/
def columnRanks (columnMetadata : List (Str × Str)) (rows : List SqliteRow) : List Nat :=
  rows.foldl widen (columnMetadata.map fun column => rank column.2)

def columnTypes (columnMetadata : List (Str × Str)) (rows : List SqliteRow) : List DataType :=
  (columnRanks columnMetadata rows).map rankType

def schemaOf (columnMetadata : List (Str × Str)) (types : List DataType) : Schema :=
  List.zipWith (fun column t => Field.mk column.1 t true) columnMetadata types

theorem widen_length (ranks : List Nat) (row : SqliteRow) (h : row.length = ranks.length) :
    (widen ranks row).length = ranks.length := by
  simp only [widen, List.length_zipWith, List.length_map, h, Nat.min_self]

theorem foldl_widen_length (ranks : List Nat) (rows : List SqliteRow)
    (h : ∀ row ∈ rows, row.length = ranks.length) :
    (rows.foldl widen ranks).length = ranks.length := by
  induction rows generalizing ranks with
  | nil => rfl
  | cons row rest ih =>
    have hrow := widen_length ranks row (h row (List.mem_cons_self ..))
    rw [List.foldl_cons, ih (widen ranks row) fun r hm => by
      rw [hrow]; exact h r (List.mem_cons_of_mem row hm), hrow]

theorem columnTypes_length (columnMetadata : List (Str × Str)) (rows : List SqliteRow)
    (h : ∀ row ∈ rows, row.length = columnMetadata.length) :
    (columnTypes columnMetadata rows).length = columnMetadata.length := by
  rw [columnTypes, List.length_map, columnRanks,
    foldl_widen_length _ rows (by simpa only [List.length_map] using h), List.length_map]

theorem schemaOf_types (columnMetadata : List (Str × Str)) (types : List DataType)
    (h : types.length = columnMetadata.length) :
    (schemaOf columnMetadata types).map Field.dataType = types := by
  induction columnMetadata generalizing types with
  | nil =>
    have htypes : types = [] := List.length_eq_zero_iff.mp h
    rw [htypes]
    rfl
  | cons column rest ih =>
    cases types with
    | nil => simp only [List.length_nil, List.length_cons, reduceCtorEq] at h
    | cons t types =>
      have htail := ih types (by simpa only [List.length_cons, Nat.add_right_cancel_iff] using h)
      simp only [schemaOf, List.zipWith_cons_cons, List.map_cons] at htail ⊢
      rw [htail]

theorem schemaOf_nullable (columnMetadata : List (Str × Str)) (types : List DataType) :
    ∀ field ∈ schemaOf columnMetadata types, field.nullable = true := by
  induction columnMetadata generalizing types with
  | nil => exact fun field hf => absurd hf List.not_mem_nil
  | cons column rest ih =>
    cases types with
    | nil => exact fun field hf => absurd hf List.not_mem_nil
    | cons t types =>
      intro field hf
      rcases List.mem_cons.mp hf with rfl | hrest
      · rfl
      · exact ih types field hrest

/- A schema says what its column types are. -/
theorem schemaOf_inj (columnMetadata : List (Str × Str)) (types types' : List DataType)
    (h : types.length = columnMetadata.length) (h' : types'.length = columnMetadata.length) :
    schemaOf columnMetadata types = schemaOf columnMetadata types' ↔ types = types' := by
  constructor
  · intro heq
    rw [← schemaOf_types columnMetadata types h, heq, schemaOf_types columnMetadata types' h']
  · intro heq
    rw [heq]

/- Every value of the row fits the widened column. -/
theorem row_le_widen (ranks : List Nat) (row : SqliteRow) (h : row.length = ranks.length) :
    List.Forall₂ (fun r raw => valueRank raw ≤ r) (widen ranks row) row := by
  induction ranks generalizing row with
  | nil =>
    have hrow : row = [] := List.length_eq_zero_iff.mp h
    subst hrow
    exact .nil
  | cons r ranks ih =>
    cases row with
    | nil => simp only [List.length_nil, List.length_cons, reduceCtorEq] at h
    | cons raw row =>
      exact .cons (Nat.le_max_right _ _) (ih row (by
        simpa only [List.length_cons, Nat.add_right_cancel_iff] using h))

/- Values that fit the columns still fit them after more rows. -/
theorem le_widen (ranks : List Nat) (row values : SqliteRow) (h : row.length = ranks.length)
    (hle : List.Forall₂ (fun r raw => valueRank raw ≤ r) ranks values) :
    List.Forall₂ (fun r raw => valueRank raw ≤ r) (widen ranks row) values := by
  induction hle generalizing row with
  | nil =>
    have hrow : row = [] := List.length_eq_zero_iff.mp h
    subst hrow
    exact .nil
  | cons hfirst _ ih =>
    cases row with
    | nil => simp only [List.length_nil, List.length_cons, reduceCtorEq] at h
    | cons raw row =>
      exact .cons (Nat.le_trans hfirst (Nat.le_max_left _ _)) (ih row (by
        simpa only [List.length_cons, Nat.add_right_cancel_iff] using h))

theorem le_foldl_widen (ranks : List Nat) (rows : List SqliteRow) (values : SqliteRow)
    (h : ∀ row ∈ rows, row.length = ranks.length)
    (hle : List.Forall₂ (fun r raw => valueRank raw ≤ r) ranks values) :
    List.Forall₂ (fun r raw => valueRank raw ≤ r) (rows.foldl widen ranks) values := by
  induction rows generalizing ranks with
  | nil => exact hle
  | cons row rest ih =>
    have hlen := h row (List.mem_cons_self ..)
    exact ih (widen ranks row) (fun r hr => by
      rw [widen_length ranks row hlen]; exact h r (List.mem_cons_of_mem row hr))
      (le_widen ranks row values hlen hle)

/- No value of the rows is wider than its column. -/
theorem values_le (ranks : List Nat) (rows : List SqliteRow)
    (h : ∀ row ∈ rows, row.length = ranks.length) (row : SqliteRow) (hmem : row ∈ rows) :
    List.Forall₂ (fun r raw => valueRank raw ≤ r) (rows.foldl widen ranks) row := by
  induction rows generalizing ranks with
  | nil => exact absurd hmem List.not_mem_nil
  | cons first rest ih =>
    have hlen := h first (List.mem_cons_self ..)
    have hrest : ∀ r ∈ rest, r.length = (widen ranks first).length := fun r hr => by
      rw [widen_length ranks first hlen]; exact h r (List.mem_cons_of_mem first hr)
    rcases List.mem_cons.mp hmem with rfl | hin
    · exact le_foldl_widen (widen ranks row) rest row hrest (row_le_widen ranks row hlen)
    · exact ih (widen ranks first) hrest hin

/- The type names collected over the rows have the widened ranks. -/
theorem pushNames_ok (names : List (List Str)) (rows : List SqliteRow)
    (h : ∀ row ∈ rows, row.length = names.length) :
    ∃ names', rows.foldlM (eachColumn fun names raw => pure (pushName names raw)) names =
        .ok names' ∧
      names'.map widest = rows.foldl widen (names.map widest) := by
  induction rows generalizing names with
  | nil => exact ⟨names, rfl, rfl⟩
  | cons row rest ih =>
    have hlen := h row (List.mem_cons_self ..)
    have hranks : (List.zipWith pushName names row).map widest =
        widen (names.map widest) row := by
      simp only [widen, List.map_zipWith, List.zipWith_map, widest_pushName]
    obtain ⟨names', hok, hmap⟩ := ih (List.zipWith pushName names row) fun r hr => by
      rw [h r (List.mem_cons_of_mem row hr), List.length_zipWith, hlen, Nat.min_self]
    refine ⟨names', ?_, by rw [hmap, hranks, List.foldl_cons]⟩
    rw [List.foldlM_cons, eachColumn_pure pushName names row hlen]
    exact hok

theorem pushRow_ok (floats : FloatText) (columns : List ColumnValues) (row : SqliteRow) (n : Nat)
    (hlen : ∀ c ∈ columns, c.length = n)
    (h : List.Forall₂ (fun c raw => valueRank raw ≤ typeRank (ColumnValues.dataType c))
      columns row) :
    ∃ next, eachColumn (ColumnValues.push floats) columns row = .ok next ∧
      next.map ColumnValues.dataType = columns.map ColumnValues.dataType ∧
      ∀ c ∈ next, c.length = n + 1 := by
  induction h with
  | nil => exact ⟨[], rfl, rfl, fun c hc => absurd hc List.not_mem_nil⟩
  | @cons column raw columns row hle _ ih =>
    obtain ⟨first, hfirst, htype, hfirstLen⟩ := push_ok floats column raw hle
    obtain ⟨next, hnext, htypes, hnextLen⟩ := ih fun c hc => hlen c (List.mem_cons_of_mem column hc)
    refine ⟨first :: next, ?_, ?_, ?_⟩
    · simp only [eachColumn, hfirst, hnext]
      rfl
    · rw [List.map_cons, List.map_cons, htype, htypes]
    · intro c hc
      rcases List.mem_cons.mp hc with rfl | hin
      · rw [hfirstLen, hlen column (List.mem_cons_self ..)]
      · exact hnextLen c hin

theorem pushRows_ok (floats : FloatText) (columns : List ColumnValues) (rows : List SqliteRow)
    (n : Nat) (hlen : ∀ c ∈ columns, c.length = n)
    (h : ∀ row ∈ rows, List.Forall₂ (fun t raw => valueRank raw ≤ typeRank t)
      (columns.map ColumnValues.dataType) row) :
    ∃ next, rows.foldlM (eachColumn (ColumnValues.push floats)) columns = .ok next ∧
      next.map ColumnValues.dataType = columns.map ColumnValues.dataType ∧
      ∀ c ∈ next, c.length = n + rows.length := by
  induction rows generalizing columns n with
  | nil => exact ⟨columns, rfl, rfl, hlen⟩
  | cons row rest ih =>
    obtain ⟨first, hfirst, htypes, hfirstLen⟩ := pushRow_ok floats columns row n hlen
      (List.forall₂_map_left_iff.mp (h row (List.mem_cons_self ..)))
    obtain ⟨next, hnext, hnextTypes, hnextLen⟩ := ih first (n + 1) hfirstLen fun r hr => by
      rw [htypes]; exact h r (List.mem_cons_of_mem row hr)
    refine ⟨next, ?_, hnextTypes.trans htypes, ?_⟩
    · rw [List.foldlM_cons, hfirst]
      exact hnext
    · intro c hc
      rw [hnextLen c hc, List.length_cons]
      omega

/-- The rows of a chunk, all as wide as the columns, always make a batch; the
type of each column is that of the widest of its declared type and its values. -/
theorem sqliteRowsToBatch_ok (floats : FloatText) (columnMetadata : List (Str × Str))
    (rows : List SqliteRow) (hne : columnMetadata ≠ [])
    (hwidth : ∀ row ∈ rows, row.length = columnMetadata.length) :
    ∃ batch, sqliteRowsToBatch floats columnMetadata rows = .ok batch ∧
      batch.schema = schemaOf columnMetadata (columnTypes columnMetadata rows) ∧
      batch.numRows = rows.length := by
  obtain ⟨names, hnames, hranks⟩ := pushNames_ok (columnMetadata.map fun column => [column.2])
    rows (by simpa only [List.length_map] using hwidth)
  have hstart : (columnMetadata.map fun column => [column.2]).map widest =
      columnMetadata.map fun column => rank column.2 := by
    simp only [List.map_map, Function.comp_def, widest, List.map_cons, List.map_nil,
      List.foldr_cons, List.foldr_nil, Nat.max_zero]
  rw [hstart] at hranks
  have htypes : (names.map ColumnValues.new).map ColumnValues.dataType =
      columnTypes columnMetadata rows := by
    rw [columnTypes, columnRanks, ← hranks]
    simp only [List.map_map, Function.comp_def, new_dataType]
  have hvalues : ∀ row ∈ rows, List.Forall₂ (fun t raw => valueRank raw ≤ typeRank t)
      ((names.map ColumnValues.new).map ColumnValues.dataType) row := by
    intro row hrow
    rw [htypes, columnTypes, List.forall₂_map_left_iff]
    apply List.Forall₂.imp (fun r raw h => valueRank_le_typeRank raw r h)
    exact values_le _ rows (by simpa only [List.length_map] using hwidth) row hrow
  obtain ⟨columns, hcolumns, hcolTypes, hlen⟩ := pushRows_ok floats (names.map ColumnValues.new)
    rows 0 (by
      intro c hc
      obtain ⟨name, _, rfl⟩ := List.mem_map.mp hc
      exact new_length name) hvalues
  rw [htypes] at hcolTypes
  have hcount : columns.length = columnMetadata.length := by
    have hmap := congrArg List.length hcolTypes
    rwa [List.length_map, columnTypes_length columnMetadata rows hwidth] at hmap
  have hfields : List.zipWith (fun column values => Field.mk column.1
      (ColumnValues.dataType values) true) columnMetadata columns =
      schemaOf columnMetadata (columnTypes columnMetadata rows) := by
    rw [schemaOf, ← hcolTypes, List.zipWith_map_right]
  have hwell : WellFormed (schemaOf columnMetadata (columnTypes columnMetadata rows))
      (columns.map ColumnValues.finish) rows.length := by
    refine ⟨?_, ?_, ?_⟩
    · rw [schemaOf_types _ _ (columnTypes_length columnMetadata rows hwidth), ← hcolTypes]
      simp only [List.map_map, Function.comp_def, ColumnValues.finish_dataType]
    · intro array harray
      obtain ⟨column, hcolumn, rfl⟩ := List.mem_map.mp harray
      rw [ColumnValues.finish_length, hlen column hcolumn, Nat.zero_add]
    · intro p hp hnull
      rw [schemaOf_nullable _ _ p.1 (List.of_mem_zip hp).1] at hnull
      exact absurd hnull (by decide)
  have harrays : columns.map ColumnValues.finish ≠ [] := by
    intro hempty
    have hnil : columns = [] := List.map_eq_nil_iff.mp hempty
    rw [hnil] at hcount
    exact hne (List.length_eq_zero_iff.mp hcount.symm)
  obtain ⟨batch, hbatch, hschema, _, hrows⟩ := RecordBatch.tryNew_ok _ _ _ harrays hwell
  refine ⟨batch, ?_, hschema, hrows⟩
  unfold sqliteRowsToBatch
  rw [hnames]
  simp only [bind, Except.bind, hcolumns, hfields, hbatch]

end FsspecDb.Sqlite
