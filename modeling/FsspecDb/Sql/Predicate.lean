import FsspecDb.Sql.Literal
import FsspecDb.Sql.Statements
import FsspecDb.Sql.Tokens

/-!
# The where guard (sql.rs, `validate_predicate`)

The predicate that reaches a statement is what sqlparser prints of the expression
it parsed. sqlparser is a parameter.
-/

namespace FsspecDb.Sql
open Text

structure SqlParser where
  Parser : Type
  Expr : Type
  tryWithSql : Dialect → Str → Except Str Parser
  parseExpr : Parser → Except Str (Expr × Parser)
  /-- `parser.peek_token().token == Token::EOF`. -/
  atEof : Parser → Bool
  toString : Expr → Str

def validatePredicate (sqlparser : SqlParser) (dialect : Dialect) (predicate : Str) :
    Except DbError Str :=
  let predicate := trim predicate
  if predicate = [] then
    .error (.InvalidArgument "where clause must not be empty".toList)
  else
    match sqlparser.tryWithSql dialect predicate with
    | .error err => .error (.InvalidArgument ("invalid where clause: ".toList ++ err))
    | .ok parser =>
      match sqlparser.parseExpr parser with
      | .error err => .error (.InvalidArgument ("invalid where clause: ".toList ++ err))
      | .ok (expr, parser) =>
        if sqlparser.atEof parser then .ok (sqlparser.toString expr)
        else .error (.InvalidArgument "where clause must be a single boolean expression".toList)

/-- Whether a backslash in a literal is an escape; `generic` says it of a database of
no known dialect. -/
def literalEscapes (generic : Bool) : Dialect → Bool
  | .Sqlite => false
  | .Postgres => false
  | .MySql => true
  | .Generic => generic

def ColumnName (column : Str) : Prop := column ≠ [] ∧ ∀ c ∈ column, isWordChar c = true

instance (column : Str) : Decidable (ColumnName column) :=
  decidable_of_iff (column ≠ [] ∧ column.all isWordChar = true) (by
    rw [ColumnName, List.all_eq_true])

def comparison (column body : Str) : Str := column ++ " = '".toList ++ body ++ ['\'']

/-- How a database reads a comparison of a column with a literal: the two, and the text
after the closing quote. -/
def readComparison (escapes : Bool) (text : Str) : Option ((Str × Str) × Str) :=
  let column := text.takeWhile isWordChar
  match (text.dropWhile isWordChar).dropWhile (· == ' ') with
  | '=' :: operand =>
    match operand.dropWhile (· == ' ') with
    | '\'' :: body =>
      if column = [] then none
      else (readLiteral escapes body).map fun (value, rest) => ((column, value), rest)
    | _ => none
  | _ => none

/-- What the guard relies on: for a comparison with a literal, the tokenizer takes the
value by the dialect's rules and `Display` prints it by `escapeQuotedString`. -/
def SqlParser.PrintsComparisons (sqlparser : SqlParser) (generic : Bool) (column : Str) : Prop :=
  ∀ dialect body value parser expr parser',
    readLiteral (literalEscapes generic dialect) (body ++ ['\'']) = some (value, []) →
    sqlparser.tryWithSql dialect (comparison column body) = .ok parser →
    sqlparser.parseExpr parser = .ok (expr, parser') → sqlparser.atEof parser' = true →
    sqlparser.toString expr = comparison column (escapeQuotedString none value)

theorem toNat_of_isWordChar (c : Char) (h : isWordChar c = true) :
    (48 ≤ c.toNat ∧ c.toNat ≤ 57) ∨ (65 ≤ c.toNat ∧ c.toNat ≤ 122) := by
  replace h : (decide (c.val ≥ 'A'.val ∧ c.val ≤ 'Z'.val) ||
      decide (c.val ≥ 'a'.val) && decide (c.val ≤ 'z'.val) ||
      decide (c.val ≥ '0'.val) && decide (c.val ≤ '9'.val) || decide (c = '_')) = true := h
  simp only [Bool.or_eq_true, Bool.and_eq_true, decide_eq_true_eq, ge_iff_le,
    UInt32.le_iff_toNat_le] at h
  rcases h with ((h | h) | h) | h
  · exact .inr ⟨h.1, le_trans h.2 (by decide)⟩
  · exact .inr ⟨le_trans (by decide) h.1, h.2⟩
  · exact .inl h
  · rw [h]
    decide

theorem toNat_lt_of_isWordChar (c : Char) (h : isWordChar c = true) : c.toNat < 123 := by
  rcases toNat_of_isWordChar c h with h | h <;> omega

theorem isWhitespace_of_isWordChar (c : Char) (h : isWordChar c = true) :
    isWhitespace c = false := by
  have hc := toNat_of_isWordChar c h
  simp only [isWhitespace, Bool.or_eq_false_iff, Bool.and_eq_false_iff, decide_eq_false_iff_not]
  omega

theorem trim_comparison (column body : Str) (hcolumn : ColumnName column) :
    trim (comparison column body) = comparison column body := by
  obtain ⟨hne, hword⟩ := hcolumn
  cases column with
  | nil => exact absurd rfl hne
  | cons c column =>
    have hc := isWhitespace_of_isWordChar c (hword c (by simp))
    have hquote : isWhitespace '\'' = false := by decide
    rw [trim, comparison, List.cons_append, List.cons_append, List.cons_append,
      List.dropWhile_cons_of_neg (by simp [hc]), ← List.cons_append, ← List.cons_append,
      ← List.cons_append, List.rdropWhile_concat_neg _ _ _ (by simp [hquote])]

theorem readComparison_comparison (escapes : Bool) (column text : Str)
    (hcolumn : ColumnName column) :
    readComparison escapes (column ++ " = '".toList ++ text) =
      (readLiteral escapes text).map fun (value, rest) => ((column, value), rest) := by
  have htake : (column ++ " = '".toList ++ text).takeWhile isWordChar = column := by
    rw [List.append_assoc, List.takeWhile_append_of_pos hcolumn.2]
    simp [isWordChar]
  have hdrop : (column ++ " = '".toList ++ text).dropWhile isWordChar = " = '".toList ++ text := by
    rw [List.append_assoc, List.dropWhile_append_of_pos hcolumn.2]
    rfl
  rw [readComparison, htake, hdrop]
  exact if_neg hcolumn.1

/-- An accepted predicate was parsed to the end, and is what the parser prints. -/
theorem validatePredicate_ok (sqlparser : SqlParser) (dialect : Dialect) (predicate text : Str)
    (h : validatePredicate sqlparser dialect predicate = .ok text) :
    ∃ parser expr parser', sqlparser.tryWithSql dialect (trim predicate) = .ok parser ∧
      sqlparser.parseExpr parser = .ok (expr, parser') ∧ sqlparser.atEof parser' = true ∧
      sqlparser.toString expr = text := by
  unfold validatePredicate at h
  dsimp only at h
  split at h
  · exact absurd h (by simp)
  · cases hsql : sqlparser.tryWithSql dialect (trim predicate) with
    | error err => simp [hsql] at h
    | ok parser =>
      simp only [hsql] at h
      cases hexpr : sqlparser.parseExpr parser with
      | error err => simp [hexpr] at h
      | ok parsed =>
        obtain ⟨expr, parser'⟩ := parsed
        simp only [hexpr] at h
        split at h
        · next heof => exact ⟨parser, expr, parser', rfl, hexpr, heof, Except.ok.inj h⟩
        · exact absurd h (by simp)

/-- The predicate stands between the statement without it and the limit. -/
theorem selectSql_predicate (dialect : Dialect) (schema relation : Str) (columns : List Str)
    (limit : Option UInt64) (predicate select : Str)
    (h : selectSql dialect schema relation ⟨columns, none, none⟩ = .ok select) :
    selectSql dialect schema relation ⟨columns, limit, some predicate⟩ =
      .ok (select ++ " WHERE ".toList ++ (predicate ++ limitText limit)) := by
  unfold selectSql at h ⊢
  cases hcolumns : selectedColumns dialect columns with
  | error err => exact absurd h (by simp [hcolumns, bind, Except.bind])
  | ok columnList =>
    cases hrelation : qualifiedName dialect schema relation with
    | error err => exact absurd h (by simp [hcolumns, hrelation, bind, Except.bind])
    | ok relation =>
      simp only [hcolumns, hrelation, bind, Except.bind, Except.ok.injEq] at h ⊢
      rw [← h]
      simp [whereText, limitText]

theorem limitText_head (limit : Option UInt64) : (limitText limit).head? ≠ some '\'' := by
  cases limit with
  | none => simp [limitText]
  | some limit => simp [limitText]

/-- The statement compares `column` with the value the client wrote, and nothing but
the limit follows, if and only if the value prints faithfully. -/
theorem where_guard_keeps_meaning_iff (sqlparser : SqlParser) (generic : Bool) (dialect : Dialect)
    (column body value predicate : Str) (hcolumn : ColumnName column)
    (hsqlparser : sqlparser.PrintsComparisons generic column)
    (hbody : readLiteral (literalEscapes generic dialect) (body ++ ['\'']) = some (value, []))
    (haccepted : validatePredicate sqlparser dialect (comparison column body) = .ok predicate)
    (schema relation : Str) (columns : List Str) (limit : Option UInt64) (select : Str)
    (hselect : selectSql dialect schema relation ⟨columns, none, none⟩ = .ok select) :
    (∃ text, selectSql dialect schema relation ⟨columns, limit, some predicate⟩ =
        .ok (select ++ " WHERE ".toList ++ text) ∧
      readComparison (literalEscapes generic dialect) text =
        some ((column, value), limitText limit)) ↔
    PrintsFaithfully (literalEscapes generic dialect) value := by
  obtain ⟨parser, expr, parser', hsql, hexpr, heof, hprint⟩ :=
    validatePredicate_ok sqlparser dialect _ _ haccepted
  rw [trim_comparison column body hcolumn] at hsql
  have hpredicate := hsqlparser dialect body value parser expr parser' hbody hsql hexpr heof
  rw [hprint] at hpredicate
  have htext : readComparison (literalEscapes generic dialect) (predicate ++ limitText limit) =
      some ((column, value), limitText limit) ↔
        PrintsFaithfully (literalEscapes generic dialect) value := by
    rw [hpredicate, comparison, List.append_assoc, List.append_assoc,
      readComparison_comparison _ _ _ hcolumn,
      ← readLiteral_escapeQuotedString_iff _ value _ (limitText_head limit)]
    simp
  rw [selectSql_predicate dialect schema relation columns limit predicate select hselect, ← htext]
  constructor
  · intro h
    obtain ⟨text, heq, hread⟩ := h
    rw [Except.ok.injEq, List.append_cancel_left_eq] at heq
    rw [heq]
    exact hread
  · intro hread
    exact ⟨_, rfl, hread⟩

/-- A parser that knows comparisons of a column with a literal, and nothing else. -/
def comparisonParser (generic : Bool) : SqlParser where
  Parser := (Str × Str) × Str
  Expr := Str × Str
  tryWithSql dialect text :=
    match readComparison (literalEscapes generic dialect) text with
    | some parsed => .ok parsed
    | none => .error "sql parser error: expected a comparison".toList
  parseExpr parser := .ok (parser.1, parser)
  atEof parser := parser.2.isEmpty
  toString expr := comparison expr.1 (escapeQuotedString none expr.2)

theorem comparisonParser_printsComparisons (generic : Bool) (column : Str)
    (hcolumn : ColumnName column) :
    (comparisonParser generic).PrintsComparisons generic column := by
  intro dialect body value parser expr parser' hbody hsql hexpr _
  have hread : readComparison (literalEscapes generic dialect) (comparison column body) =
      some ((column, value), []) := by
    rw [comparison, List.append_assoc, readComparison_comparison _ _ _ hcolumn, hbody]
    rfl
  simp only [comparisonParser, hread] at hsql
  obtain rfl := Except.ok.inj hsql
  obtain ⟨rfl, _⟩ := Prod.mk.inj (Except.ok.inj hexpr)
  rfl

/-- A quote between letters is printed twice and keeps its meaning. -/
theorem lone_quote_keeps_meaning :
    ∃ text, selectSql .Sqlite "main".toList "users".toList
        ⟨[], some 5, some "name = 'O''Hara'".toList⟩ =
        .ok ("SELECT * FROM \"main\".\"users\"".toList ++ " WHERE ".toList ++ text) ∧
      readComparison false text = some (("name".toList, "O'Hara".toList), limitText (some 5)) :=
  (where_guard_keeps_meaning_iff (comparisonParser false) false .Sqlite "name".toList
    "O''Hara".toList "O'Hara".toList "name = 'O''Hara'".toList (by decide)
    (comparisonParser_printsComparisons false _ (by decide)) (by decide) (by decide)
    "main".toList "users".toList [] (some 5) _ (by decide)).mpr
      (show LoneQuotes _ by decide)

/-- In SQLite the literal `'\'' OR 1=1 --'` is printed with its quote once: the statement
compares with a backslash, and the rest of the value has become SQL. -/
theorem quote_after_backslash_ends_literal :
    (comparisonParser false).PrintsComparisons false "name".toList ∧
    readLiteral (literalEscapes false .Sqlite) "\\'' OR 1=1 --'".toList =
      some ("\\' OR 1=1 --".toList, []) ∧
    validatePredicate (comparisonParser false) .Sqlite "name = '\\'' OR 1=1 --'".toList =
      .ok "name = '\\' OR 1=1 --'".toList ∧
    readComparison (literalEscapes false .Sqlite) "name = '\\' OR 1=1 --'".toList =
      some (("name".toList, "\\".toList), " OR 1=1 --'".toList) ∧
    readComparison (literalEscapes false .Sqlite) "name = '\\' OR 1=1 --'".toList ≠
      some (("name".toList, "\\' OR 1=1 --".toList), []) :=
  ⟨comparisonParser_printsComparisons false _ (by decide), by decide, by decide, by decide,
    by decide⟩

end FsspecDb.Sql
