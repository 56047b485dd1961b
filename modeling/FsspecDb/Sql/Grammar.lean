import FsspecDb.Sql.Lexing

/-!
# Statements that write

The grammar of the statements that the backends send when they write: the text of a
statement is parsed into the statement it was made for.
-/

namespace FsspecDb.Sql
open Text Checked

/-- A statement as the database understands it. An `insert` has the number of
placeholders of each row, a `copy` the text that stands for NULL in its CSV data. -/
inductive Statement where
  | delete (schema relation : Str)
  | truncate (schema relation : Str)
  | insert (schema relation : Str) (columns : List Str) (groups : List Nat)
  | copy (schema relation : Str) (columns : List Str) (null : Str)
  deriving Repr, DecidableEq

/-! ### Parsing -/

def afterWords : List Str → List Token → Option (List Token)
  | [], tokens => some tokens
  | word :: words, .word text :: tokens => if text = word then afterWords words tokens else none
  | _, _ => none

def parseTable : List Token → Option ((Str × Str) × List Token)
  | .ident schema :: .symbol '.' :: .ident relation :: rest => some ((schema, relation), rest)
  | _ => none

/-- Names between commas, up to the closing parenthesis. -/
def parseNames : List Token → Option (List Str × List Token)
  | .ident name :: .symbol ',' :: rest =>
    (parseNames rest).map fun (names, rest) => (name :: names, rest)
  | .ident name :: .symbol ')' :: rest => some ([name], rest)
  | _ => none

/-- Rows of placeholders; the number says how many of the present row were read. -/
def parseGroups : Option Nat → List Token → Option (List Nat)
  | none, .symbol '(' :: .symbol '?' :: rest => parseGroups (some 1) rest
  | some n, .symbol ',' :: .symbol '?' :: rest => parseGroups (some (n + 1)) rest
  | some n, .symbol ')' :: .symbol ',' :: rest => (parseGroups none rest).map (n :: ·)
  | some n, [.symbol ')'] => some [n]
  | _, _ => none

def parseDelete (tokens : List Token) : Option Statement := do
  let ((schema, relation), rest) ← parseTable (← afterWords ["DELETE".toList, "FROM".toList] tokens)
  if rest = [] then some (.delete schema relation) else none

def parseTruncate (tokens : List Token) : Option Statement := do
  let ((schema, relation), rest) ←
    parseTable (← afterWords ["TRUNCATE".toList, "TABLE".toList] tokens)
  if rest = [] then some (.truncate schema relation) else none

def parseInsert (tokens : List Token) : Option Statement := do
  let ((schema, relation), rest) ← parseTable (← afterWords ["INSERT".toList, "INTO".toList] tokens)
  match rest with
  | .symbol '(' :: rest =>
    let (columns, rest) ← parseNames rest
    let groups ← parseGroups none (← afterWords ["VALUES".toList] rest)
    some (.insert schema relation columns groups)
  | _ => none

def parseCopy (tokens : List Token) : Option Statement := do
  let ((schema, relation), rest) ← parseTable (← afterWords ["COPY".toList] tokens)
  match rest with
  | .symbol '(' :: rest =>
    let (columns, rest) ← parseNames rest
    match ← afterWords ["FROM".toList, "STDIN".toList, "WITH".toList] rest with
    | .symbol '(' :: rest =>
      match ← afterWords ["FORMAT".toList, "csv".toList] rest with
      | .symbol ',' :: rest =>
        match ← afterWords ["NULL".toList] rest with
        | [.literal null, .symbol ')'] => some (.copy schema relation columns null)
        | _ => none
      | _ => none
    | _ => none
  | _ => none

def parseTokens (tokens : List Token) : Option Statement :=
  parseDelete tokens <|> parseTruncate tokens <|> parseInsert tokens <|> parseCopy tokens

/-- The statement that a text is, for a database that quotes names with `q`. -/
def parseStatement (q : Char) (text : Str) : Option Statement := (lex q text).bind parseTokens

theorem parseNames_commaTokens (names : List Str) (rest : List Token) (hne : names ≠ []) :
    parseNames (commaTokens (names.map fun name => [.ident name]) ++ .symbol ')' :: rest) =
      some (names, rest) := by
  induction names with
  | nil => exact absurd rfl hne
  | cons name names ih =>
    cases names with
    | nil => rfl
    | cons next names =>
      have hrest := ih (by simp)
      simp only [List.map_cons, commaTokens, List.cons_append, List.nil_append,
        parseNames] at hrest ⊢
      rw [hrest]
      rfl

def groupTokens (n : Nat) : List Token :=
  .symbol '(' :: commaTokens (List.replicate n [.symbol '?']) ++ [.symbol ')']

theorem parseGroups_marks (k n : Nat) (rest : List Token) :
    parseGroups (some k) ((List.replicate n [Token.symbol ',', .symbol '?']).flatten ++ rest) =
      parseGroups (some (k + n)) rest := by
  induction n generalizing k with
  | zero => rfl
  | succ n ih =>
    rw [List.replicate_succ, List.flatten_cons, List.append_assoc, List.cons_append,
      List.cons_append, List.nil_append, parseGroups, ih, Nat.add_right_comm, Nat.add_assoc]

theorem groupTokens_succ (n : Nat) :
    groupTokens (n + 1) = .symbol '(' :: .symbol '?' ::
      (List.replicate n [Token.symbol ',', .symbol '?']).flatten ++ [.symbol ')'] := by
  have h : commaTokens (List.replicate (n + 1) [.symbol '?']) =
      .symbol '?' :: (List.replicate n [Token.symbol ',', .symbol '?']).flatten := by
    induction n with
    | zero => rfl
    | succ n ih =>
      rw [List.replicate_succ, List.replicate_succ (n := n), commaTokens, ← List.replicate_succ, ih]
      · rfl
      · simp
  rw [groupTokens, h]

theorem parseGroups_groups (columns rows : Nat) (hcolumns : 0 < columns) :
    parseGroups none (commaTokens (List.replicate (rows + 1) (groupTokens columns))) =
      some (List.replicate (rows + 1) columns) := by
  obtain ⟨n, rfl⟩ := Nat.exists_eq_succ_of_ne_zero hcolumns.ne'
  have hgroup (rest : List Token) : parseGroups none (groupTokens (n + 1) ++ rest) =
      parseGroups (some (n + 1)) (.symbol ')' :: rest) := by
    rw [groupTokens_succ, List.append_assoc, List.cons_append, List.cons_append, parseGroups,
      parseGroups_marks, Nat.add_comm 1 n]
    rfl
  induction rows with
  | zero =>
    have h := hgroup []
    rw [List.append_nil] at h
    exact h
  | succ rows ih =>
    rw [List.replicate_succ, List.replicate_succ (n := rows), commaTokens, ← List.replicate_succ,
      hgroup, parseGroups, ih, List.replicate_succ (n := rows + 1)]
    · rfl
    · simp

theorem afterWords_nil (tokens : List Token) : afterWords [] tokens = some tokens := by
  cases tokens <;> rfl

theorem afterWords_eq (word : Str) (words : List Str) (rest : List Token) :
    afterWords (word :: words) (.word word :: rest) = afterWords words rest := if_pos rfl

theorem afterWords_ne (word verb : Str) (words : List Str) (rest : List Token) (h : verb ≠ word) :
    afterWords (word :: words) (.word verb :: rest) = none := if_neg h

theorem parseTable_eq (schema relation : Str) (rest : List Token) :
    parseTable (.ident schema :: .symbol '.' :: .ident relation :: rest) =
      some ((schema, relation), rest) := rfl

theorem parseTokens_delete (schema relation : Str) :
    parseTokens [.word "DELETE".toList, .word "FROM".toList, .ident schema, .symbol '.',
      .ident relation] = some (.delete schema relation) := rfl

theorem parseTokens_truncate (schema relation : Str) :
    parseTokens [.word "TRUNCATE".toList, .word "TABLE".toList, .ident schema, .symbol '.',
      .ident relation] = some (.truncate schema relation) := by
  rw [parseTokens, parseDelete, afterWords_ne _ _ _ _ (by decide)]
  rfl

theorem parseTokens_insert (schema relation : Str) (columns : List Str) (rows : Nat)
    (hcolumns : columns ≠ []) :
    parseTokens (.word "INSERT".toList :: .word "INTO".toList :: .ident schema :: .symbol '.' ::
        .ident relation :: .symbol '(' :: (commaTokens (columns.map fun name => [.ident name]) ++
        .symbol ')' :: .word "VALUES".toList ::
          commaTokens (List.replicate (rows + 1) (groupTokens columns.length)))) =
      some (.insert schema relation columns (List.replicate (rows + 1) columns.length)) := by
  have hgroups := parseGroups_groups columns.length rows (List.length_pos_iff.mpr hcolumns)
  rw [parseTokens, parseDelete, parseTruncate, parseInsert, afterWords_ne _ _ _ _ (by decide),
    afterWords_ne _ _ _ _ (by decide)]
  simp only [afterWords_eq, afterWords_nil, parseTable_eq, Option.bind_eq_bind, Option.bind_none,
    Option.bind_some, parseNames_commaTokens columns _ hcolumns, hgroups]
  rfl

theorem parseTokens_copy (schema relation null : Str) (columns : List Str)
    (hcolumns : columns ≠ []) :
    parseTokens (.word "COPY".toList :: .ident schema :: .symbol '.' :: .ident relation ::
        .symbol '(' :: (commaTokens (columns.map fun name => [.ident name]) ++
        [.symbol ')', .word "FROM".toList, .word "STDIN".toList, .word "WITH".toList, .symbol '(',
          .word "FORMAT".toList, .word "csv".toList, .symbol ',', .word "NULL".toList,
          .literal null, .symbol ')'])) =
      some (.copy schema relation columns null) := by
  rw [parseTokens, parseDelete, parseTruncate, parseInsert, parseCopy,
    afterWords_ne _ _ _ _ (by decide), afterWords_ne _ _ _ _ (by decide),
    afterWords_ne _ _ _ _ (by decide)]
  simp only [afterWords_eq, afterWords_nil, parseTable_eq, Option.bind_eq_bind, Option.bind_none,
    Option.bind_some, parseNames_commaTokens columns _ hcolumns]
  rfl

/-! ### The statements of sql.rs -/

section
variable (dialect : Dialect)

/-- The statement that empties a table, where `verb` is `DELETE FROM` or `TRUNCATE TABLE`. -/
theorem lexes_verb (verb schema relation : Str) (words : List Token)
    (hverb : Lexes (identifierQuote dialect) verb words) :
    LexesBefore (identifierQuote dialect)
      (verb ++ (quotedName (identifierQuote dialect) schema ++ ['.'] ++
        quotedName (identifierQuote dialect) relation))
      (words ++ [.ident schema, .symbol '.', .ident relation]) :=
  hverb.append_before (lexes_qualified dialect schema relation)

theorem rowTokens_eq (h : dialect ≠ .Postgres) (columnCount index row : Nat) :
    rowTokens dialect columnCount index row = groupTokens columnCount := by
  have hmark (k : Nat) : placeholderTokens dialect k = [.symbol '?'] := by
    cases dialect with
    | Postgres => exact absurd rfl h
    | Sqlite | MySql | Generic => rfl
  simp only [rowTokens, groupTokens, hmark, List.map_const', List.length_range]

/-- The text of an INSERT is the statement with one placeholder for each cell. -/
theorem parse_insertSql (schema relation : Str) (columns : List Str) (rows : Nat) (text : Str)
    (hdialect : dialect ≠ .Postgres)
    (h : insertSql dialect schema relation columns rows = .ok text) :
    parseStatement (identifierQuote dialect) text =
      some (.insert schema relation columns (List.replicate rows columns.length)) := by
  have hlex := lex_insertSql dialect schema relation columns rows text h
  unfold insertSql at h
  split_ifs at h with hcolumns hrows
  obtain ⟨rows, rfl⟩ := Nat.exists_eq_succ_of_ne_zero hrows
  have hgroups : (List.range (rows + 1)).map (rowTokens dialect columns.length 1) =
      List.replicate (rows + 1) (groupTokens columns.length) := by
    rw [List.map_congr_left fun row _ => rowTokens_eq dialect hdialect _ 1 row, List.map_const',
      List.length_range]
  rw [parseStatement, hlex, insertTokens, hgroups]
  simpa [nameTokens, columnTokens] using parseTokens_insert schema relation columns rows hcolumns

theorem parse_delete (schema relation text : Str)
    (hname : qualifiedName dialect schema relation = .ok text) :
    parseStatement (identifierQuote dialect) ("DELETE FROM ".toList ++ text) =
      some (.delete schema relation) := by
  have hverb : Lexes (identifierQuote dialect) "DELETE FROM ".toList
      [.word "DELETE".toList, .word "FROM".toList] := by
    cases dialect <;> exact lexes_fixed rfl rfl
  rw [qualifiedName_ok dialect schema relation text hname, parseStatement,
    (lexes_verb dialect _ schema relation _ hverb).lex_eq]
  exact parseTokens_delete schema relation

theorem parse_truncate (schema relation text : Str)
    (hname : qualifiedName dialect schema relation = .ok text) :
    parseStatement (identifierQuote dialect) ("TRUNCATE TABLE ".toList ++ text) =
      some (.truncate schema relation) := by
  have hverb : Lexes (identifierQuote dialect) "TRUNCATE TABLE ".toList
      [.word "TRUNCATE".toList, .word "TABLE".toList] := by
    cases dialect <;> exact lexes_fixed rfl rfl
  rw [qualifiedName_ok dialect schema relation text hname, parseStatement,
    (lexes_verb dialect _ schema relation _ hverb).lex_eq]
  exact parseTokens_truncate schema relation

end

end FsspecDb.Sql
