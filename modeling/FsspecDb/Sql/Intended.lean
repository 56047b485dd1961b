import FsspecDb.Insert.Copy
import FsspecDb.Sql.Options

/-!
# What a generated statement names

The tokens that the statements of sql.rs and `copy_in_sql` are meant to have, and the
proof that the generated text has these and no others.
-/

namespace FsspecDb.Sql
open Text Checked

/-! ### Intended statements -/

def limitTokens (limit : Option UInt64) : List Token :=
  limit.elim [] fun limit => [.word "LIMIT".toList, .word (Nat.toDigits 10 limit.toNat)]

/-- A SELECT of the columns in their order, or of all of them if there are none. -/
def selectTokens (schema relation : Str) (columns : List Str) (limit : Option UInt64) :
    List Token :=
  .word "SELECT".toList :: (if columns = [] then [.symbol '*'] else columnTokens columns) ++
    .word "FROM".toList :: nameTokens schema relation ++ limitTokens limit

def copyTokens (schema relation : Str) (columns : List Str) : List Token :=
  .word "COPY".toList :: nameTokens schema relation ++ .symbol '(' :: columnTokens columns ++
    [.symbol ')', .word "FROM".toList, .word "STDIN".toList, .word "WITH".toList, .symbol '(',
      .word "FORMAT".toList, .word "csv".toList, .symbol ',', .word "NULL".toList,
      .literal "\\N".toList, .symbol ')']

/-! ### Which statements are made -/

section
variable (dialect : Dialect)

theorem exists_quoteIdentifier_iff (identifier : Str) :
    (∃ text, quoteIdentifier dialect identifier = .ok text) ↔ ValidIdentifier identifier := by
  simp only [quoteIdentifier_eq_ok_iff, exists_and_left, exists_eq, and_true]

theorem exists_qualifiedName_iff (schema relation : Str) :
    (∃ text, qualifiedName dialect schema relation = .ok text) ↔
      ValidIdentifier schema ∧ ValidIdentifier relation := by
  rw [← exists_quoteIdentifier_iff dialect schema, ← exists_quoteIdentifier_iff dialect relation]
  exact exists_bind_bind_ok_iff

theorem exists_mapM_quoteIdentifier_iff (names : List Str) :
    (∃ texts, names.mapM (quoteIdentifier dialect) = .ok texts) ↔
      ∀ name ∈ names, ValidIdentifier name := by
  simp only [exists_mapM_eq_ok_iff, exists_quoteIdentifier_iff]

theorem exists_selectedColumns_iff (columns : List Str) :
    (∃ text, selectedColumns dialect columns = .ok text) ↔
      ∀ column ∈ columns, ValidIdentifier column := by
  unfold selectedColumns
  split
  · next h => simp [h]
  · rw [← exists_mapM_quoteIdentifier_iff dialect]
    simp only [map_eq_ok_iff, exists_comm (α := Str), exists_and_left, exists_eq', and_true]

theorem exists_selectSql_iff (schema relation : Str) (options : SelectOptions) :
    (∃ text, selectSql dialect schema relation options = .ok text) ↔
      (∀ column ∈ options.columns, ValidIdentifier column) ∧
        ValidIdentifier schema ∧ ValidIdentifier relation := by
  rw [← exists_selectedColumns_iff dialect, ← exists_qualifiedName_iff dialect]
  exact exists_bind_bind_ok_iff

theorem exists_insertSql_iff (schema relation : Str) (columns : List Str) (rows : Nat) :
    (∃ text, insertSql dialect schema relation columns rows = .ok text) ↔
      columns ≠ [] ∧ 0 < rows ∧ (ValidIdentifier schema ∧ ValidIdentifier relation) ∧
        ∀ column ∈ columns, ValidIdentifier column := by
  rw [← exists_qualifiedName_iff dialect, ← exists_mapM_quoteIdentifier_iff dialect]
  unfold insertSql
  split
  · next h => simp [h]
  · next hcolumns =>
    split
    · next h => simp [h]
    · next hrows =>
      rw [exists_bind_bind_ok_iff]
      exact ⟨fun h => ⟨hcolumns, Nat.pos_of_ne_zero hrows, h⟩, fun h => h.2.2⟩

theorem exists_copyInSql_iff (schema relation : Str) (columns : List Str) :
    (∃ text, Postgres.copyInSql schema relation columns = .ok text) ↔
      columns ≠ [] ∧ (ValidIdentifier schema ∧ ValidIdentifier relation) ∧
        ∀ column ∈ columns, ValidIdentifier column := by
  rw [← exists_qualifiedName_iff .Postgres, ← exists_mapM_quoteIdentifier_iff .Postgres]
  unfold Postgres.copyInSql
  split
  · next h => simp [h]
  · next hcolumns =>
    rw [exists_bind_bind_ok_iff]
    exact ⟨fun h => ⟨hcolumns, h⟩, fun h => h.2⟩

/-! ### The tokens of the generated text -/

theorem lexes_selectedColumns (columns : List Str) (text : Str)
    (h : selectedColumns dialect columns = .ok text) :
    LexesBefore (identifierQuote dialect) text
      (if columns = [] then [.symbol '*'] else columnTokens columns) := by
  unfold selectedColumns at h
  split at h
  · next hcolumns =>
    rw [if_pos hcolumns, ← Except.ok.inj h]
    cases dialect <;> exact (lexes_fixed rfl rfl).before
  · next hcolumns =>
    obtain ⟨texts, htexts, rfl⟩ := map_eq_ok_iff.mp h
    rw [if_neg hcolumns, mapM_quoteIdentifier_ok dialect columns texts htexts]
    exact lexes_columns dialect columns

theorem lexes_limit (limit : Option UInt64) :
    LexesUntil (identifierQuote dialect) (limitText limit) (limitTokens limit) := by
  cases limit with
  | none => exact fun _ _ => Option.map_id'.symm
  | some limit =>
    have hword : Lexes (identifierQuote dialect) " LIMIT ".toList [.word "LIMIT".toList] := by
      cases dialect <;> exact lexes_fixed rfl rfl
    exact hword.append_until (lexes_number dialect limit.toNat)

theorem lex_selectSql (schema relation : Str) (columns : List Str) (limit : Option UInt64)
    (text : Str) (h : selectSql dialect schema relation ⟨columns, limit, none⟩ = .ok text) :
    lex (identifierQuote dialect) text = some (selectTokens schema relation columns limit) := by
  obtain ⟨columnText, hcolumns, h⟩ := bind_eq_ok_iff.mp h
  obtain ⟨relationText, hrelation, h⟩ := bind_eq_ok_iff.mp h
  have hselect : Lexes (identifierQuote dialect) "SELECT ".toList [.word "SELECT".toList] := by
    cases dialect <;> exact lexes_fixed rfl rfl
  have hfrom : Lexes (identifierQuote dialect) " FROM ".toList [.word "FROM".toList] := by
    cases dialect <;> exact lexes_fixed rfl rfl
  have hlist := (hselect.append_before
    (lexes_selectedColumns dialect columns columnText hcolumns)).append hfrom (by simp)
    (by cases dialect <;> decide)
  have hname := lexes_qualified dialect schema relation
  rw [← qualifiedName_ok dialect schema relation relationText hrelation] at hname
  have hlimit := lexes_limit dialect limit
  have htext := (hlist.append_before hname).append_until hlimit fun rest hrest => by
    cases limit with
    | none => exact hrest.head_ne
    | some limit =>
      show some ' ' ≠ some (identifierQuote dialect)
      cases dialect <;> decide
  have heq : "SELECT ".toList ++ columnText ++ " FROM ".toList ++ relationText ++ whereText none ++
      limitText limit = text := Except.ok.inj h
  rw [whereText, Option.elim_none, List.append_nil] at heq
  rw [← heq, htext.lex_eq, selectTokens, nameTokens]
  simp only [List.append_assoc, List.cons_append, List.nil_append]

theorem lex_copyInSql (schema relation : Str) (columns : List Str) (text : Str)
    (h : Postgres.copyInSql schema relation columns = .ok text) :
    lex (identifierQuote .Postgres) text = some (copyTokens schema relation columns) := by
  refine (Postgres.lex_copyInSql schema relation columns text h).2.trans (congrArg some ?_)
  simp [copyTokens, nameTokens, columnTokens]

/-- Whatever the names are made of, a generated statement exists if the names can be
quoted and there is something to insert, and it has the intended tokens. -/
theorem generated_text_is_intended (sqlparser : SqlParser) (schema relation : Str) :
    (∀ query options, (∀ parameter ∈ query, parameter.1 ≠ "where".toList) →
      selectOptionsFromQuery sqlparser dialect query = .ok options →
      ((∃ text, selectSql dialect schema relation options = .ok text) ↔
        (∀ column ∈ requestedColumns query, ValidIdentifier column) ∧
          ValidIdentifier schema ∧ ValidIdentifier relation) ∧
      ∀ text, selectSql dialect schema relation options = .ok text →
        lex (identifierQuote dialect) text =
          some (selectTokens schema relation (requestedColumns query) (requestedLimit query))) ∧
    (∀ columns rows,
      ((∃ text, insertSql dialect schema relation columns rows = .ok text) ↔
        columns ≠ [] ∧ 0 < rows ∧ (ValidIdentifier schema ∧ ValidIdentifier relation) ∧
          ∀ column ∈ columns, ValidIdentifier column) ∧
      ∀ text, insertSql dialect schema relation columns rows = .ok text →
        lex (identifierQuote dialect) text =
          some (insertTokens dialect schema relation columns rows)) ∧
    ∀ columns,
      ((∃ text, Postgres.copyInSql schema relation columns = .ok text) ↔
        columns ≠ [] ∧ (ValidIdentifier schema ∧ ValidIdentifier relation) ∧
          ∀ column ∈ columns, ValidIdentifier column) ∧
      ∀ text, Postgres.copyInSql schema relation columns = .ok text →
        lex (identifierQuote .Postgres) text = some (copyTokens schema relation columns) := by
  refine ⟨fun query options hkeys hoptions => ?_, fun columns rows => ?_, fun columns => ?_⟩
  · rw [selectOptionsFromQuery_requested sqlparser dialect query options hkeys hoptions]
    exact ⟨exists_selectSql_iff dialect schema relation _,
      fun text => lex_selectSql dialect schema relation _ _ text⟩
  · exact ⟨exists_insertSql_iff dialect schema relation columns rows,
      fun text => lex_insertSql dialect schema relation columns rows text⟩
  · exact ⟨exists_copyInSql_iff schema relation columns,
      fun text => lex_copyInSql schema relation columns text⟩

end

/-- A name with quotes, a comma and keywords in it is still one name. -/
theorem hostile_column_is_one_name :
    selectOptionsFromQuery (comparisonParser false) .Sqlite
        [("columns".toList, "id\" FROM x--".toList), ("limit".toList, "5".toList)] =
      .ok ⟨["id\" FROM x--".toList], some 5, none⟩ ∧
    ∀ text, selectSql .Sqlite "main".toList "us\"ers".toList
        ⟨["id\" FROM x--".toList], some 5, none⟩ = .ok text →
      lex '"' text = some [.word "SELECT".toList, .ident "id\" FROM x--".toList,
        .word "FROM".toList, .ident "main".toList, .symbol '.', .ident "us\"ers".toList,
        .word "LIMIT".toList, .word "5".toList] :=
  ⟨by decide, fun text htext => ((generated_text_is_intended .Sqlite (comparisonParser false)
    "main".toList "us\"ers".toList).1 [("columns".toList, "id\" FROM x--".toList),
    ("limit".toList, "5".toList)] _ (by decide) (by decide)).2 text htext⟩

end FsspecDb.Sql
