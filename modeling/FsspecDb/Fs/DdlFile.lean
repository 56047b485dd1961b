import FsspecDb.Fs.CatFile
import FsspecDb.Sql.TableText

/-!
# The .sql file of a table (fs.rs, `ddl_sql`)

A database that reads the file as a CREATE TABLE understands the columns that it listed.
-/

namespace FsspecDb.Fs
open Text Sql Checked

/-- What is declared of a column, where its type and its default are read as tokens. -/
def declaredColumn (q : Char) (column : ColumnInfo) : Option DeclaredColumn := do
  let declared ← tokensOf q column.dataType
  match column.default with
  | none => some ⟨column.name, declared, !column.nullable, none⟩
  | some text => do
    let default ← tokensOf q text
    some ⟨column.name, declared, !column.nullable, some default⟩

/-! ### The tokens of the file -/

theorem tokensOf_lexes {q : Char} {text : Str} {tokens : List Token} (h : Lexes q text tokens)
    (rest : Str) : tokensOf q (text ++ rest) = (tokensOf q rest).map fun more =>
      tokens.filter (fun token => !token.isWhite) ++ more := by
  rw [tokensOf, h rest, tokensOf, Option.map_map, Option.map_map]
  congr 1
  funext more
  exact List.filter_append tokens more

section
variable (dialect : Dialect)

/- NOT NULL behind a text. -/
theorem tokensOf_notNull (text : Str) (tokens : List Token)
    (h : tokensOf (identifierQuote dialect) text = some tokens) (nullable : Bool) :
    tokensOf (identifierQuote dialect)
        (text ++ if nullable then [] else " NOT NULL".toList) =
      some (tokens ++ if !nullable then [.word "NOT".toList, .word "NULL".toList] else []) := by
  cases nullable with
  | true => simpa only [if_true, Bool.not_true, Bool.false_eq_true, if_false, List.append_nil]
      using h
  | false =>
    have hwords : tokensOf (identifierQuote dialect) "NOT NULL".toList =
        some [.word "NOT".toList, .word "NULL".toList] := by
      cases dialect <;> decide
    have htext : " NOT NULL".toList = ' ' :: "NOT NULL".toList := by decide
    rw [if_neg Bool.false_ne_true, Bool.not_false, if_pos rfl, htext]
    exact tokensOf_space dialect h hwords

/- A default behind a text. -/
theorem tokensOf_default (text : Str) (tokens : List Token)
    (h : tokensOf (identifierQuote dialect) text = some tokens) (default : Option Str)
    (defaultTokens : Option (List Token))
    (hdefault : default.map (tokensOf (identifierQuote dialect)) = defaultTokens.map some) :
    tokensOf (identifierQuote dialect)
        (text ++ default.elim [] fun default => " DEFAULT ".toList ++ default) =
      some (tokens ++ defaultTokens.elim [] fun more => .word "DEFAULT".toList :: more) := by
  cases default with
  | none =>
    cases defaultTokens with
    | none => simpa only [Option.elim_none, List.append_nil] using h
    | some more => cases hdefault
  | some default =>
    cases defaultTokens with
    | none => cases hdefault
    | some more =>
      have hmore := Option.some.inj hdefault
      have hword : tokensOf (identifierQuote dialect) "DEFAULT".toList =
          some [.word "DEFAULT".toList] := by
        cases dialect <;> decide
      have htext : " DEFAULT ".toList = ' ' :: ("DEFAULT".toList ++ [' ']) := by decide
      rw [Option.elim_some, htext, List.cons_append, List.append_assoc]
      exact tokensOf_space dialect h (tokensOf_space dialect hword hmore)

theorem declaredColumn_eq (q : Char) (column : ColumnInfo) (declared : DeclaredColumn)
    (h : declaredColumn q column = some declared) :
    declared.name = column.name ∧ tokensOf q column.dataType = some declared.declared ∧
      declared.notNull = !column.nullable ∧
      column.default.map (tokensOf q) = declared.default.map some := by
  obtain ⟨tokens, htokens, h⟩ := Option.bind_eq_some_iff.mp h
  cases hdefault : column.default with
  | none =>
    rw [hdefault] at h
    obtain rfl := Option.some.inj h
    exact ⟨rfl, htokens, rfl, rfl⟩
  | some text =>
    rw [hdefault] at h
    obtain ⟨more, hmore, h⟩ := Option.bind_eq_some_iff.mp h
    obtain rfl := Option.some.inj h
    exact ⟨rfl, htokens, rfl, congrArg some hmore⟩

theorem tokensOf_ddlColumn (column : ColumnInfo) (line : Str) (declared : DeclaredColumn)
    (hline : ddlColumn dialect column = .ok line)
    (hdeclared : declaredColumn (identifierQuote dialect) column = some declared) :
    tokensOf (identifierQuote dialect) line = some (columnDefTokens declared) := by
  obtain ⟨name, hname, hline⟩ := bind_eq_ok_iff.mp hline
  obtain rfl := quoteIdentifier_ok dialect _ _ hname
  obtain ⟨hcolumn, htype, hnull, hdefault⟩ := declaredColumn_eq _ column declared hdeclared
  have hclauses := tokensOf_default dialect _ _
    (tokensOf_notNull dialect column.dataType declared.declared htype column.nullable)
    column.default declared.default hdefault
  have hspaced := tokensOf_space dialect (tokensOf_identifier dialect column.name) hclauses
  rw [← tokensOf_blank dialect ' ' _ (.inl rfl), ← tokensOf_blank dialect ' ' _ (.inl rfl)]
    at hspaced
  have htext : "  ".toList = [' ', ' '] := by decide
  rw [← Except.ok.inj hline, htext, columnDefTokens, clauseTokens, hcolumn, hnull]
  simpa only [List.append_assoc, List.cons_append, List.nil_append] using hspaced

/- The lines with the end of the statement. -/
theorem tokensOf_lines (lines : List Str) (items : List (List Token)) (hne : lines ≠ [])
    (h : List.Forall₂ (fun line item => tokensOf (identifierQuote dialect) line = some item)
      lines items) :
    tokensOf (identifierQuote dialect) (join ",\n".toList lines ++ "\n);".toList) =
      some (commaTokens items ++ [.symbol ')', .symbol ';']) := by
  induction h with
  | nil => exact absurd rfl hne
  | @cons line item lines items hline hlines ih =>
    cases hlines with
    | nil =>
      have hend : tokensOf (identifierQuote dialect) ('\n' :: [')', ';']) =
          some [.symbol ')', .symbol ';'] := by
        cases dialect <;> decide
      have hseparator : Separator (identifierQuote dialect) '\n' := by
        cases dialect <;> exact ⟨by decide, by decide, by decide, by decide⟩
      have htext : join ",\n".toList [line] ++ "\n);".toList = line ++ '\n' :: [')', ';'] := by
        simp only [join, List.intercalate_singleton]
        rfl
      rw [htext]
      exact tokensOf_append hline hseparator hend
    | @cons next nextItem rest restItems _ _ =>
      have hmore := ih (List.cons_ne_nil next rest)
      have hseparator : Separator (identifierQuote dialect) ',' := by
        cases dialect <;> exact ⟨by decide, by decide, by decide, by decide⟩
      have hcomma : tokensOf (identifierQuote dialect)
          (',' :: '\n' :: (join ",\n".toList (next :: rest) ++ "\n);".toList)) =
            some (.symbol ',' :: (commaTokens (nextItem :: restItems) ++
              [.symbol ')', .symbol ';'])) := by
        rw [tokensOf_symbol dialect ',' _ hseparator (by decide) (by decide),
          tokensOf_blank dialect '\n' _ (.inr rfl), hmore, Option.map_some]
      have htext : join ",\n".toList (line :: next :: rest) ++ "\n);".toList =
          line ++ ',' :: '\n' :: (join ",\n".toList (next :: rest) ++ "\n);".toList) := by
        have hbreak : ",\n".toList = [',', '\n'] := by decide
        rw [hbreak]
        simp only [join, List.intercalate_cons_cons, List.append_assoc, List.cons_append,
          List.nil_append]
      have htokens : commaTokens (item :: nextItem :: restItems) ++ [.symbol ')', .symbol ';'] =
          item ++ .symbol ',' :: (commaTokens (nextItem :: restItems) ++
            [.symbol ')', .symbol ';']) := by
        simp only [commaTokens, List.append_assoc, List.cons_append]
      rw [htext, htokens]
      exact tokensOf_append hline hseparator hcomma

theorem tokensOf_table (schema relation : Str) (lines : List Str) (items : List (List Token))
    (hne : lines ≠ [])
    (h : List.Forall₂ (fun line item => tokensOf (identifierQuote dialect) line = some item)
      lines items) :
    tokensOf (identifierQuote dialect) ("CREATE TABLE ".toList ++
        quotedName (identifierQuote dialect) schema ++ ['.'] ++
        quotedName (identifierQuote dialect) relation ++ " (\n".toList ++
        join ",\n".toList lines ++ "\n);".toList) =
      some (.word "CREATE".toList :: .word "TABLE".toList :: nameTokens schema relation ++
        .symbol '(' :: (commaTokens items ++ [.symbol ')', .symbol ';'])) := by
  have hcreate : Lexes (identifierQuote dialect) "CREATE TABLE ".toList
      [.word "CREATE".toList, .word "TABLE".toList] := by
    cases dialect <;> exact lexes_fixed rfl rfl
  have hopen : Lexes (identifierQuote dialect) " (\n".toList [.symbol '(', .symbol '\n'] := by
    cases dialect <;> exact lexes_fixed rfl rfl
  have hnames := (lexes_qualified dialect schema relation).append hopen (by decide)
    (by cases dialect <;> decide)
  have hhead := hcreate.append_before hnames.before
  have htext : "CREATE TABLE ".toList ++ quotedName (identifierQuote dialect) schema ++ ['.'] ++
      quotedName (identifierQuote dialect) relation ++ " (\n".toList ++
      join ",\n".toList lines ++ "\n);".toList =
    ("CREATE TABLE ".toList ++ (quotedName (identifierQuote dialect) schema ++ ['.'] ++
      quotedName (identifierQuote dialect) relation ++ " (\n".toList)) ++
      (join ",\n".toList lines ++ "\n);".toList) := by
    simp only [List.append_assoc]
  rw [htext, tokensOf_lexes fun rest => lex_append (hcreate _) (hnames rest),
    tokensOf_lines dialect lines items hne h]
  rfl

end

variable {σ Stream Writer Schema Batch : Type}

theorem tokensOf_mapM (dialect : Dialect) (columns : List ColumnInfo) (lines : List Str)
    (declared : List DeclaredColumn) (hlines : columns.mapM (ddlColumn dialect) = .ok lines)
    (hdeclared : columns.mapM (declaredColumn (identifierQuote dialect)) = some declared) :
    List.Forall₂ (fun line item => tokensOf (identifierQuote dialect) line = some item)
      lines (declared.map columnDefTokens) := by
  rw [mapM_eq_ok_iff] at hlines
  rw [mapM_eq_some_iff] at hdeclared
  induction hlines generalizing declared with
  | nil =>
    obtain rfl := List.forall₂_nil_left_iff.mp hdeclared
    exact .nil
  | cons hline _ ih =>
    obtain ⟨item, rest, hitem, hrest, rfl⟩ := List.forall₂_cons_left_iff.mp hdeclared
    exact .cons (tokensOf_ddlColumn dialect _ _ item hline hitem) (ih rest hrest)

theorem ddlSql_reads (grammar : ColumnGrammar) (db : Database σ Stream) (s : σ)
    (dialect : Dialect) (schema relation : Str) (info : RelationInfo) (hkind : info.kind ≠ .View)
    (columns : List ColumnInfo)
    (hcolumns : db.listColumns s schema relation = .ok columns) (hne : columns ≠ [])
    (declared : List DeclaredColumn)
    (hdeclared : columns.mapM (declaredColumn (identifierQuote dialect)) = some declared)
    (hclosed : ∀ column ∈ declared, column.Closed)
    (htakes : ∀ column ∈ declared, grammar.takes column = true) (text : Str)
    (htext : ddlSql db s dialect schema relation info = .ok text) :
    readTable grammar (identifierQuote dialect) text = some ((schema, relation), declared) := by
  rw [ddlSql, if_neg hkind] at htext
  obtain ⟨columns', hcolumns', htext⟩ := bind_eq_ok_iff.mp htext
  obtain rfl := Except.ok.inj (hcolumns'.symm.trans hcolumns)
  obtain ⟨lines, hlines, htext⟩ := bind_eq_ok_iff.mp htext
  obtain ⟨schemaText, hschema, htext⟩ := bind_eq_ok_iff.mp htext
  obtain ⟨relationText, hrelation, htext⟩ := bind_eq_ok_iff.mp htext
  obtain rfl := Except.ok.inj htext
  obtain rfl := quoteIdentifier_ok dialect _ _ hschema
  obtain rfl := quoteIdentifier_ok dialect _ _ hrelation
  have htokens := tokensOf_mapM dialect columns' lines declared hlines hdeclared
  have hlinesNe : lines ≠ [] := by
    rintro rfl
    exact hne (List.forall₂_nil_right_iff.mp (mapM_eq_ok_iff.mp hlines))
  have hdeclaredNe : declared ≠ [] := by
    rintro rfl
    exact hne (List.forall₂_nil_right_iff.mp (mapM_eq_some_iff.mp hdeclared))
  exact readTable_eq hdeclaredNe hclosed htakes
    (tokensOf_table dialect schema relation lines _ hlinesNe htokens)

/-- The file of a table that can be opened is read as a CREATE TABLE of the table, with the name,
type, NOT NULL and default of each column that was listed, by a database that takes each of the
types and defaults as they are written there. -/
theorem sql_file_recreates (grammar : ColumnGrammar)
    (backend : Backend σ Stream Writer Schema Batch) (s : σ) (path : Str) (parsed : DbPath)
    (hparsed : DbPath.parse path = .ok parsed)
    (hformat : parsed.kind = .RelationData .Sql) (schema relation : Str)
    (hrelation : requiredRelation parsed = .ok (schema, relation)) (info : RelationInfo)
    (hinfo : backend.db.relationInfo s schema relation = .ok info) (hkind : info.kind ≠ .View)
    (columns : List ColumnInfo) (hcolumns : backend.db.listColumns s schema relation = .ok columns)
    (hne : columns ≠ []) (declared : List DeclaredColumn)
    (hdeclared :
      columns.mapM (declaredColumn (identifierQuote backend.db.dialect)) = some declared)
    (hclosed : ∀ column ∈ declared, column.Closed)
    (htakes : ∀ column ∈ declared, grammar.takes column = true) (file : FsFile Writer Schema Batch)
    (hopen : openDb backend s path = .ok file) :
    ∃ text hsize fileInfo, file = .db (DbFile.readable (Utf8.encode text) hsize fileInfo) ∧
      readTable grammar (identifierQuote backend.db.dialect) text =
        some ((schema, relation), declared) := by
  obtain ⟨parsed', hparsed', hopen⟩ := bind_eq_ok_iff.mp hopen
  obtain rfl := Except.ok.inj (hparsed'.symm.trans hparsed)
  simp only [hformat] at hopen
  obtain ⟨names, hnames, hopen⟩ := bind_eq_ok_iff.mp hopen
  obtain rfl := Except.ok.inj (hnames.symm.trans hrelation)
  obtain ⟨info', hinfo', hopen⟩ := bind_eq_ok_iff.mp hopen
  obtain rfl := Except.ok.inj (hinfo'.symm.trans hinfo)
  rw [if_pos trivial] at hopen
  obtain ⟨text, htext, hopen⟩ := bind_eq_ok_iff.mp hopen
  rw [readableFile] at hopen
  split at hopen
  · next hsize =>
    refine ⟨text, hsize, _, (Except.ok.inj hopen).symm, ?_⟩
    exact ddlSql_reads grammar backend.db s backend.db.dialect schema relation info' hkind columns
      hcolumns hne declared hdeclared hclosed htakes text htext
  · cases hopen

/- Types are words with numbers in parentheses behind them; a default is a literal, a word, or
stands in parentheses. -/
def smallGrammar : ColumnGrammar where
  isType tokens := tokens.all fun token =>
    match token with
    | .word _ => true
    | .symbol c => c = '(' || c = ',' || c = ')'
    | _ => false
  isDefault tokens :=
    match tokens with
    | [.literal _] | [.word _] => true
    | .symbol '(' :: rest => rest.getLast? = some (.symbol ')')
    | _ => false

/- The default of the column that SQLite lists for `DEFAULT (datetime('now'))`, whose parentheses
are those of the clause, is none without them. -/
example : readTable smallGrammar '"'
    "CREATE TABLE \"main\".\"log\" (\n  \"at\" TEXT DEFAULT datetime('now')\n);".toList =
      none := by
  decide +kernel

/- A type and a default with commas of their own. -/
def orderColumns : List ColumnInfo := [
  ⟨"id".toList, "INTEGER".toList, false, none, 1, true, none⟩,
  ⟨"total, net".toList, "DECIMAL(10, 2)".toList, true, none, 2, false, none⟩,
  ⟨"state".toList, "TEXT".toList, false, some "'new, open'".toList, 3, false, none⟩]

def orderDeclared : List DeclaredColumn := [
  ⟨"id".toList, [.word "INTEGER".toList], true, none⟩,
  ⟨"total, net".toList, [.word "DECIMAL".toList, .symbol '(', .word "10".toList, .symbol ',',
    .word "2".toList, .symbol ')'], false, none⟩,
  ⟨"state".toList, [.word "TEXT".toList], true, some [.literal "new, open".toList]⟩]

def ordersBackend : Backend Unit Unit (Str × Bool) Str (List Str) :=
  { idsBackend with db := { idsDb with listColumns := fun _ _ _ => .ok orderColumns } }

theorem sql_file_recreates_orders :
    ∃ text hsize fileInfo, openDb ordersBackend () "/main/orders.sql".toList =
        .ok (.db (DbFile.readable (Utf8.encode text) hsize fileInfo)) ∧
      readTable smallGrammar '"' text = some (("main".toList, "orders".toList), orderDeclared) := by
  have hok : (openDb ordersBackend () "/main/orders.sql".toList).isOk = true := by
    decide +kernel
  have hdeclared : orderColumns.mapM (declaredColumn '"') = some orderDeclared := by decide
  have hclosed : ∀ column ∈ orderDeclared, column.Closed := by
    intro column hcolumn
    rw [orderDeclared, List.mem_cons, List.mem_cons, List.mem_singleton] at hcolumn
    rcases hcolumn with rfl | rfl | rfl
    · exact ⟨by decide, fun tokens htokens => by cases htokens⟩
    · exact ⟨by decide, fun tokens htokens => by cases htokens⟩
    · refine ⟨by decide, fun tokens htokens => ?_⟩
      obtain rfl := Option.some.inj htokens
      decide
  have htakes : ∀ column ∈ orderDeclared, smallGrammar.takes column = true := by
    rw [← List.all_eq_true]
    decide
  cases hopen : openDb ordersBackend () "/main/orders.sql".toList with
  | error err =>
    rw [hopen] at hok
    cases hok
  | ok file =>
    obtain ⟨text, hsize, fileInfo, hfile, htext⟩ := sql_file_recreates smallGrammar ordersBackend ()
      "/main/orders.sql".toList
      ⟨some "main".toList, some "orders".toList, .RelationData .Sql, []⟩ (by decide) rfl
      "main".toList "orders".toList rfl
      ⟨"orders".toList, .Table, none, none, none⟩ rfl (by decide) orderColumns rfl (by decide)
      orderDeclared hdeclared hclosed htakes file hopen
    exact ⟨text, hsize, fileInfo, congrArg Except.ok hfile, htext⟩

end FsspecDb.Fs
