import FsspecDb.Ddl.Agreement

/-!
# The table that mkdir creates (spec.py)

The CREATE TABLE of an Arrow schema, and the columns that are read back from its text: their
names, declared types and NOT NULL.
-/

namespace FsspecDb.Ddl
open Text Checked

structure ColumnDef where
  name : Str
  declared : Str
  notNull : Bool
  deriving Repr, DecidableEq

/-! ### Reading the columns of a CREATE TABLE -/

/-- A quoted name and a type of one word. -/
def readColumnDef (q : Char) (text : Str) : Option (ColumnDef × Str) := do
  let (name, text) ← readIdentifier q text
  let text ← afterWord [' '] text
  let declared := text.takeWhile Sql.isWordChar
  let rest := text.dropWhile Sql.isWordChar
  match afterWord " NOT NULL".toList rest with
  | some rest => some (⟨name, declared, true⟩, rest)
  | none => some (⟨name, declared, false⟩, rest)

/- The first argument bounds the number of columns. -/
def readColumnDefs (q : Char) : Nat → Str → Option (List ColumnDef)
  | 0, _ => none
  | n + 1, text => do
    let (column, text) ← readColumnDef q text
    if text = [')'] then some [column]
    else do
      let more ← readColumnDefs q n (← afterWord ", ".toList text)
      some (column :: more)

def readCreateTable (q : Char) (text : Str) : Option ((Str × Str) × List ColumnDef) := do
  let text ← afterWord "CREATE TABLE ".toList text
  let (table, text) ← readQualified q text
  let text ← afterWord " (".toList text
  let columns ← readColumnDefs q text.length text
  some (table, columns)

/-! ### The text of the definitions -/

/-- The type that `_arrow_type_to_sql` gives the field is this word. -/
structure HasSqlType (field : PaField) (declared : Str) : Prop where
  translated : arrowTypeToSql field = .ok declared
  word : ∀ c ∈ declared, Sql.isWordChar c = true

theorem word_before (declared tail : Str) (hword : ∀ c ∈ declared, Sql.isWordChar c = true)
    (htail : ∀ c ∈ tail.head?, Sql.isWordChar c = false) :
    (declared ++ tail).takeWhile Sql.isWordChar = declared ∧
      (declared ++ tail).dropWhile Sql.isWordChar = tail := by
  rw [List.takeWhile_append_of_pos hword, List.dropWhile_append_of_pos hword]
  cases tail with
  | nil => exact ⟨List.append_nil declared, rfl⟩
  | cons c tail =>
    have hc : Sql.isWordChar c = false := htail c rfl
    rw [List.takeWhile_cons_of_neg (by simp [hc]), List.dropWhile_cons_of_neg (by simp [hc])]
    exact ⟨List.append_nil declared, rfl⟩

namespace DdlFs

variable (fs : DdlFs)

def definitionText (column : ColumnDef) : Str :=
  fs.quoteDdlIdentifier column.name ++ ' ' :: column.declared ++
    if column.notNull then " NOT NULL".toList else []

theorem columnDefinition_ok (field : PaField) (declared : Str) (h : HasSqlType field declared) :
    fs.columnDefinition field =
      .ok (fs.definitionText ⟨field.name, declared, !field.nullable⟩) := by
  rw [columnDefinition, h.translated, definitionText]
  cases field.nullable <;> rfl

/- After a definition comes the next one or the end of the list. -/
theorem readColumnDef_definition (column : ColumnDef) (rest : Str)
    (hword : ∀ c ∈ column.declared, Sql.isWordChar c = true)
    (hrest : rest.head? = some ',' ∨ rest.head? = some ')') :
    readColumnDef fs.quote (fs.definitionText column ++ rest) = some (column, rest) := by
  obtain ⟨name, declared, notNull⟩ := column
  have hspace (tail : Str) : (' ' :: tail).head? ≠ some fs.quote := by
    rcases fs.quote_cases with h | h <;> rw [h] <;> simp
  have hname (tail : Str) : readIdentifier fs.quote (fs.quoteDdlIdentifier name ++ ' ' :: tail) =
      some (name, [' '] ++ tail) :=
    fs.readIdentifier_quoted name (' ' :: tail) (hspace tail)
  have hrestWord : ∀ c ∈ rest.head?, Sql.isWordChar c = false := by
    intro c hc
    rcases hrest with h | h <;> rw [h] at hc <;> rw [← Option.some.inj hc] <;> decide
  have hnull : afterWord " NOT NULL".toList rest = none := by
    apply afterWord_head_ne _ _ (by decide)
    rcases hrest with h | h <;> rw [h] <;> decide
  cases notNull with
  | true =>
    obtain ⟨htake, hdrop⟩ := word_before declared (" NOT NULL".toList ++ rest) hword
      fun c hc => by rw [← Option.some.inj hc]; decide
    rw [definitionText, if_pos rfl, List.append_assoc, List.append_assoc, List.cons_append,
      readColumnDef, hname]
    simp only [Option.bind_eq_bind, Option.bind_some, afterWord_append, htake, hdrop]
  | false =>
    obtain ⟨htake, hdrop⟩ := word_before declared rest hword hrestWord
    rw [definitionText, if_neg Bool.false_ne_true, List.append_nil, List.append_assoc,
      List.cons_append, readColumnDef, hname]
    simp only [Option.bind_eq_bind, Option.bind_some, afterWord_append, htake, hdrop, hnull]

theorem readColumnDefs_join (columns : List ColumnDef) (n : Nat) (hne : columns ≠ [])
    (hn : columns.length ≤ n)
    (hword : ∀ column ∈ columns, ∀ c ∈ column.declared, Sql.isWordChar c = true) :
    readColumnDefs fs.quote n (join ", ".toList (columns.map fs.definitionText) ++ [')']) =
      some columns := by
  induction columns generalizing n with
  | nil => exact absurd rfl hne
  | cons column columns ih =>
    obtain ⟨n, rfl⟩ : ∃ m, n = m + 1 := ⟨n - 1, by rw [List.length_cons] at hn; omega⟩
    rw [List.forall_mem_cons] at hword
    cases columns with
    | nil =>
      have hone : join ", ".toList ([column].map fs.definitionText) = fs.definitionText column := by
        simp [join, List.intercalate]
      rw [hone, readColumnDefs, fs.readColumnDef_definition column _ hword.1 (.inr rfl)]
      rfl
    | cons next rest =>
      have hjoin : join ", ".toList ((column :: next :: rest).map fs.definitionText) ++ [')'] =
          fs.definitionText column ++ (", ".toList ++
            (join ", ".toList ((next :: rest).map fs.definitionText) ++ [')'])) := by
        simp [join, List.intercalate]
      have hmore := ih n (List.cons_ne_nil next rest) (Nat.le_of_succ_le_succ hn) hword.2
      rw [hjoin, readColumnDefs, fs.readColumnDef_definition column _ hword.1 (.inl rfl)]
      simp only [Option.bind_eq_bind, Option.bind_some, afterWord_append, hmore]
      rw [if_neg (by simp)]

theorem length_le_join (columns : List ColumnDef) :
    columns.length ≤ (join ", ".toList (columns.map fs.definitionText)).length := by
  have htext (column : ColumnDef) : 1 ≤ (fs.definitionText column).length := by
    rw [definitionText, List.length_append, List.length_append, List.length_cons]
    omega
  induction columns with
  | nil => exact Nat.zero_le _
  | cons column columns ih =>
    have hcolumn := htext column
    cases columns with
    | nil => simpa [join, List.intercalate] using hcolumn
    | cons next rest =>
      have hjoin : join ", ".toList ((column :: next :: rest).map fs.definitionText) =
          fs.definitionText column ++ (", ".toList ++
            join ", ".toList ((next :: rest).map fs.definitionText)) := by
        simp [join, List.intercalate]
      rw [hjoin, List.length_append, List.length_append, List.length_cons]
      omega

/-- What `mkdir` creates: a column for each field, with its name and type, and NOT NULL for a
field that is not nullable. -/
theorem mkdir_creates (path schema relation : Str) (fields : List PaField)
    (declared : PaField → Str) (hallow : fs.allowDdl = true)
    (hpath : ddlPath path = .ok (schema, some relation, none)) (hne : fields ≠ [])
    (hdeclared : ∀ field ∈ fields, HasSqlType field (declared field)) :
    ∃ sql, fs.mkdir path none (some fields) = .ok sql ∧
      readCreateTable fs.quote sql = some ((schema, relation),
        fields.map fun field => ⟨field.name, declared field, !field.nullable⟩) := by
  let columns := fields.map fun field => ColumnDef.mk field.name (declared field) (!field.nullable)
  let text := join ", ".toList (columns.map fs.definitionText)
  have htexts : fields.mapM fs.columnDefinition = .ok (columns.map fs.definitionText) := by
    rw [mapM_eq_ok_iff, List.forall₂_map_right_iff, List.forall₂_map_right_iff, List.forall₂_same]
    exact fun field hfield => fs.columnDefinition_ok field _ (hdeclared field hfield)
  have hword : ∀ column ∈ columns, ∀ c ∈ column.declared, Sql.isWordChar c = true := by
    intro column hcolumn
    obtain ⟨field, hfield, rfl⟩ := List.mem_map.mp hcolumn
    exact (hdeclared field hfield).word
  have hcolumns :
      readColumnDefs fs.quote (text ++ [')']).length (text ++ [')']) = some columns := by
    refine fs.readColumnDefs_join columns _ (by simpa [columns] using hne) ?_ hword
    rw [List.length_append]
    exact Nat.le_trans (fs.length_le_join columns) (Nat.le_add_right _ _)
  have hparen : (" (".toList ++ (text ++ [')'])).head? ≠ some fs.quote := by
    rcases fs.quote_cases with h | h <;> rw [h] <;> simp
  refine ⟨"CREATE TABLE ".toList ++ fs.qualified schema relation ++ " (".toList ++ text ++ [')'],
    ?_, ?_⟩
  · simp only [mkdir, requireDdl, hallow, if_true, hpath, htexts, bind, Except.bind]
    rfl
  · rw [List.append_assoc, List.append_assoc, List.append_assoc, readCreateTable, afterWord_append]
    simp only [Option.bind_eq_bind, Option.bind_some, fs.readQualified_qualified _ _ _ hparen,
      afterWord_append, hcolumns]
    rfl

end DdlFs

end FsspecDb.Ddl
