import FsspecDb.Lib.Checked
import FsspecDb.Sql.Statements
import FsspecDb.Sql.Tokens

/-!
# Tokens of generated text

A quoted name is one token, whatever is in it, and so is a number; the text of a statement
has the tokens of its parts.
-/

namespace FsspecDb.Sql
open Text Checked

/-! ### Texts and their tokens -/

/-- From where no token is open `text` is lexed into `tokens`, whatever comes after it. -/
def Lexes (q : Char) (text : Str) (tokens : List Token) : Prop :=
  ∀ rest : Str, lex q (text ++ rest) = (lex q rest).map fun more => tokens ++ more

/-- The same of a text that a quote behind it would continue. -/
def LexesBefore (q : Char) (text : Str) (tokens : List Token) : Prop :=
  ∀ rest : Str, rest.head? ≠ some q →
    lex q (text ++ rest) = (lex q rest).map fun more => tokens ++ more

/-- What may come after a word so that it ends there. -/
def EndsWord (q : Char) (rest : Str) : Prop := ∀ c ∈ rest.head?, isWordChar c = false ∧ c ≠ q

/-- Lexed into `tokens` before a text that continues neither a name nor a word. -/
def LexesUntil (q : Char) (text : Str) (tokens : List Token) : Prop :=
  ∀ rest : Str, EndsWord q rest →
    lex q (text ++ rest) = (lex q rest).map fun more => tokens ++ more

theorem lex_append {q : Char} {s t rest : Str} {as bs : List Token}
    (hs : lex q (s ++ (t ++ rest)) = (lex q (t ++ rest)).map fun more => as ++ more)
    (ht : lex q (t ++ rest) = (lex q rest).map fun more => bs ++ more) :
    lex q ((s ++ t) ++ rest) = (lex q rest).map fun more => (as ++ bs) ++ more := by
  rw [List.append_assoc, hs, ht, Option.map_map]
  simp only [Function.comp_def, List.append_assoc]

theorem Lexes.before {q : Char} {text : Str} {tokens : List Token} (h : Lexes q text tokens) :
    LexesBefore q text tokens := fun rest _ => h rest

/-- A fixed text is lexed by running the lexer, which is to end where no token is open. -/
theorem lexes_fixed {q : Char} {text : Str} {tokens : List Token}
    (hmode : (Mealy.run (lexStep q) .blank text).2 = .blank)
    (htokens : (Mealy.run (lexStep q) .blank text).1.flatten = tokens) : Lexes q text tokens := by
  intro rest
  simp only [lex, lexFrom, Mealy.run_append, hmode, List.flatten_append, htokens, Option.map_map,
    Function.comp_def, List.append_assoc]

theorem Lexes.append_before {q : Char} {s t : Str} {as bs : List Token} (hs : Lexes q s as)
    (ht : LexesBefore q t bs) : LexesBefore q (s ++ t) (as ++ bs) := by
  exact fun rest hrest => lex_append (hs _) (ht rest hrest)

theorem LexesBefore.append {q : Char} {s t : Str} {as bs : List Token} (hs : LexesBefore q s as)
    (ht : Lexes q t bs) (hne : t ≠ []) (hhead : t.head? ≠ some q) :
    Lexes q (s ++ t) (as ++ bs) := by
  intro rest
  have hrest : (t ++ rest).head? ≠ some q := by rwa [List.head?_append_of_ne_nil t hne]
  exact lex_append (hs _ hrest) (ht rest)

theorem LexesBefore.lex_eq {q : Char} {text : Str} {tokens : List Token}
    (h : LexesBefore q text tokens) : lex q text = some tokens := by
  have hnil := h [] (by simp)
  simpa [lex_nil] using hnil

/-- A name as `quote_identifier` writes it. -/
def quotedName (q : Char) (name : Str) : Str := q :: Quote.double q name ++ [q]

theorem lexes_quotedName {q : Char} (hq : q ≠ ' ') (name : Str) :
    LexesBefore q (quotedName q name) [.ident name] := by
  intro rest hrest
  have h := lex_quoted q q name rest (.inl rfl) hq hrest
  rw [quotedToken, if_pos rfl] at h
  rw [quotedName, List.append_assoc]
  exact h

def commaTokens : List (List Token) → List Token
  | [] => []
  | [item] => item
  | item :: items => item ++ .symbol ',' :: commaTokens items

/- A list between commas, where each item is lexed before a text that satisfies `ends`. -/
theorem lex_join {q : Char} (hcomma : Lexes q ", ".toList [.symbol ',']) (ends : Str → Prop)
    (hends : ∀ rest, ends (", ".toList ++ rest)) (items : List (Str × List Token))
    (h : ∀ item ∈ items, ∀ rest, ends rest →
      lex q (item.1 ++ rest) = (lex q rest).map fun more => item.2 ++ more)
    (rest : Str) (hrest : ends rest) :
    lex q (join ", ".toList (items.map Prod.fst) ++ rest) =
      (lex q rest).map fun more => commaTokens (items.map Prod.snd) ++ more := by
  induction items with
  | nil => exact Option.map_id'.symm
  | cons item items ih =>
    have hitem := h item (by simp)
    cases items with
    | nil => simpa [join, List.intercalate, commaTokens] using hitem rest hrest
    | cons next items =>
      have hjoin : join ", ".toList ((item :: next :: items).map Prod.fst) ++ rest =
          item.1 ++ (", ".toList ++ (join ", ".toList ((next :: items).map Prod.fst) ++ rest)) := by
        simp [join, List.intercalate]
      have htokens : commaTokens ((item :: next :: items).map Prod.snd) =
          item.2 ++ ([.symbol ','] ++ commaTokens ((next :: items).map Prod.snd)) := by
        simp [commaTokens]
      rw [hjoin, htokens, hitem _ (hends _), hcomma,
        ih fun other hother => h other (by simp [hother]), Option.map_map, Option.map_map]
      simp only [Function.comp_def, List.append_assoc]

theorem lexes_join {q : Char} (hcomma : Lexes q ", ".toList [.symbol ',']) (hne : q ≠ ',')
    (items : List (Str × List Token)) (h : ∀ item ∈ items, LexesBefore q item.1 item.2) :
    LexesBefore q (join ", ".toList (items.map Prod.fst)) (commaTokens (items.map Prod.snd)) :=
  lex_join hcomma (fun rest => rest.head? ≠ some q) (fun _ => by simp [Ne.symm hne]) items h

/-! ### Words and numbers -/

theorem EndsWord.head_ne {q : Char} {rest : Str} (h : EndsWord q rest) : rest.head? ≠ some q := by
  intro hhead
  exact (h q (by rw [hhead]; rfl)).2 rfl

theorem LexesBefore.until {q : Char} {text : Str} {tokens : List Token}
    (h : LexesBefore q text tokens) : LexesUntil q text tokens := by
  exact fun rest hrest => h rest hrest.head_ne

theorem Lexes.append_until {q : Char} {s t : Str} {as bs : List Token} (hs : Lexes q s as)
    (ht : LexesUntil q t bs) : LexesUntil q (s ++ t) (as ++ bs) := by
  exact fun rest hrest => lex_append (hs _) (ht rest hrest)

theorem LexesUntil.append {q : Char} {s t : Str} {as bs : List Token} (hs : LexesUntil q s as)
    (ht : Lexes q t bs) (hne : t ≠ []) (hends : EndsWord q t) : Lexes q (s ++ t) (as ++ bs) := by
  intro rest
  have hrest : EndsWord q (t ++ rest) := by
    rwa [EndsWord, List.head?_append_of_ne_nil t hne]
  exact lex_append (hs _ hrest) (ht rest)

theorem LexesBefore.append_until {q : Char} {s t : Str} {as bs : List Token}
    (hs : LexesBefore q s as) (ht : LexesUntil q t bs)
    (hhead : ∀ rest, EndsWord q rest → (t ++ rest).head? ≠ some q) :
    LexesUntil q (s ++ t) (as ++ bs) := by
  exact fun rest hrest => lex_append (hs _ (hhead rest hrest)) (ht rest hrest)

theorem LexesUntil.lex_eq {q : Char} {text : Str} {tokens : List Token}
    (h : LexesUntil q text tokens) : lex q text = some tokens := by
  have hnil := h [] (by simp [EndsWord])
  simpa [lex_nil] using hnil

theorem lexFrom_word (q : Char) (read text rest : Str) (hword : ∀ c ∈ text, isWordChar c = true)
    (hrest : EndsWord q rest) :
    lexFrom q (.word read) (text ++ rest) =
      (lex q rest).map fun tokens => .word (read.reverse ++ text) :: tokens := by
  induction text generalizing read with
  | nil =>
    rw [List.nil_append, List.append_nil]
    cases rest with
    | nil => rfl
    | cons c rest =>
      have hc : isWordChar c = false := (hrest c rfl).1
      have hstep : lexStep q (.word read) c =
          (.word read.reverse :: (opening q c).1, (opening q c).2) := by
        rw [lexStep, if_neg (by simp [hc])]
      rw [lex, lexFrom_cons, lexFrom_cons, hstep, Option.map_map]
      rfl
  | cons c text ih =>
    have hstep : lexStep q (.word read) c = ([], .word (c :: read)) := by
      rw [lexStep, if_pos (hword c (by simp))]
    rw [List.cons_append, lexFrom_cons, hstep, ih _ fun d hd => hword d (by simp [hd])]
    simp [Function.comp_def]

theorem lexesUntil_word {q : Char} (hq : isWordChar q = false) (text : Str) (hne : text ≠ [])
    (hword : ∀ c ∈ text, isWordChar c = true) : LexesUntil q text [.word text] := by
  intro rest hrest
  cases text with
  | nil => exact absurd rfl hne
  | cons c text =>
    have hc := hword c (by simp)
    have hnot (d : Char) (hd : isWordChar d = false) : c ≠ d := by
      intro heq
      subst heq
      simp [hd] at hc
    have hstep : lexStep q .blank c = ([], .word [c]) := by
      rw [lexStep, opening, if_neg (hnot ' ' (by decide)), if_neg, if_pos hc]
      simp [hnot q hq, hnot '\'' (by decide), hnot '"' (by decide)]
    rw [lex, List.cons_append, lexFrom_cons, hstep,
      lexFrom_word q [c] text rest (fun d hd => hword d (by simp [hd])) hrest]
    simp [Function.comp_def]

theorem lexesUntil_join {q : Char} (hcomma : Lexes q ", ".toList [.symbol ',']) (hne : q ≠ ',')
    (items : List (Str × List Token)) (h : ∀ item ∈ items, LexesUntil q item.1 item.2) :
    LexesUntil q (join ", ".toList (items.map Prod.fst)) (commaTokens (items.map Prod.snd)) := by
  refine lex_join hcomma (EndsWord q) (fun rest c hc => ?_) items h
  obtain rfl : ',' = c := by simpa using hc
  exact ⟨by decide, Ne.symm hne⟩

/-! ### Names, lists of names and numbers -/

section
variable (dialect : Dialect)

theorem lexes_comma : Lexes (identifierQuote dialect) ", ".toList [.symbol ','] := by
  cases dialect <;> exact lexes_fixed rfl rfl

theorem lexes_identifier (name : Str) :
    LexesBefore (identifierQuote dialect) (quotedName (identifierQuote dialect) name)
      [.ident name] := by
  refine lexes_quotedName ?_ name
  cases dialect <;> decide

theorem lexes_qualified (schema relation : Str) :
    LexesBefore (identifierQuote dialect)
      (quotedName (identifierQuote dialect) schema ++ ['.'] ++
        quotedName (identifierQuote dialect) relation)
      [.ident schema, .symbol '.', .ident relation] := by
  have hdot : Lexes (identifierQuote dialect) ['.'] [.symbol '.'] := by
    cases dialect <;> exact lexes_fixed rfl rfl
  refine ((lexes_identifier dialect schema).append hdot (by simp) ?_).append_before
    (lexes_identifier dialect relation)
  cases dialect <;> decide

theorem quoteIdentifier_ok (name text : Str) (h : quoteIdentifier dialect name = .ok text) :
    text = quotedName (identifierQuote dialect) name :=
  ((quoteIdentifier_eq_ok_iff dialect name text).mp h).2

theorem qualifiedName_ok (schema relation text : Str)
    (h : qualifiedName dialect schema relation = .ok text) :
    text = quotedName (identifierQuote dialect) schema ++ ['.'] ++
      quotedName (identifierQuote dialect) relation := by
  obtain ⟨schemaText, hschema, h⟩ := bind_eq_ok_iff.mp h
  obtain ⟨relationText, hrelation, h⟩ := bind_eq_ok_iff.mp h
  rw [← Except.ok.inj h, quoteIdentifier_ok dialect schema schemaText hschema,
    quoteIdentifier_ok dialect relation relationText hrelation, List.append_assoc]
  rfl

theorem mapM_quoteIdentifier_ok (names texts : List Str)
    (h : names.mapM (quoteIdentifier dialect) = .ok texts) :
    texts = names.map (quotedName (identifierQuote dialect)) := by
  have hall := mapM_eq_ok_iff.mp h
  clear h
  induction hall with
  | nil => rfl
  | cons hhead _ ih => rw [List.map_cons, ih, quoteIdentifier_ok dialect _ _ hhead]

theorem lexes_columns (names : List Str) :
    LexesBefore (identifierQuote dialect)
      (join ", ".toList (names.map (quotedName (identifierQuote dialect))))
      (commaTokens (names.map fun name => [.ident name])) := by
  have h := lexes_join (lexes_comma dialect) (by cases dialect <;> decide)
    (names.map fun name => (quotedName (identifierQuote dialect) name, [Token.ident name])) (by
      intro item hitem
      obtain ⟨name, _, rfl⟩ := List.mem_map.mp hitem
      exact lexes_identifier dialect name)
  simpa only [List.map_map, Function.comp_def] using h

theorem isWordChar_of_mem_digits (n : Nat) (c : Char) (hc : c ∈ Nat.toDigits 10 n) :
    isWordChar c = true := by
  have hdigit : c.isDigit = true := Nat.isDigit_of_mem_toDigits (by decide) (by decide) hc
  simp [isWordChar, Char.isAlphanum, hdigit]

theorem lexes_number (n : Nat) :
    LexesUntil (identifierQuote dialect) (Nat.toDigits 10 n) [.word (Nat.toDigits 10 n)] := by
  refine lexesUntil_word ?_ _ Nat.toDigits_ne_nil (isWordChar_of_mem_digits n)
  cases dialect <;> decide

/-! ### The text of an INSERT -/

def nameTokens (schema relation : Str) : List Token :=
  [.ident schema, .symbol '.', .ident relation]

def columnTokens (columns : List Str) : List Token :=
  commaTokens (columns.map fun name => [.ident name])

def placeholderTokens (dialect : Dialect) (index : Nat) : List Token :=
  match dialect with
  | .Postgres => [.symbol '$', .word (Nat.toDigits 10 index)]
  | _ => [.symbol '?']

/-- The placeholders of a row, where those of the first row begin with `index`. -/
def rowTokens (dialect : Dialect) (columnCount index row : Nat) : List Token :=
  .symbol '(' :: commaTokens ((List.range columnCount).map fun column =>
    placeholderTokens dialect (index + row * columnCount + column)) ++ [.symbol ')']

def insertTokens (dialect : Dialect) (schema relation : Str) (columns : List Str) (rows : Nat) :
    List Token :=
  .word "INSERT".toList :: .word "INTO".toList :: nameTokens schema relation ++
    .symbol '(' :: columnTokens columns ++ .symbol ')' :: .word "VALUES".toList ::
    commaTokens ((List.range rows).map (rowTokens dialect columns.length 1))

theorem lexes_placeholder (index : Nat) :
    LexesUntil (identifierQuote dialect) (placeholder dialect index)
      (placeholderTokens dialect index) := by
  cases dialect with
  | Postgres =>
    have hdollar : Lexes '"' ['$'] [.symbol '$'] := lexes_fixed rfl rfl
    exact hdollar.append_until (lexes_number .Postgres index)
  | Sqlite | MySql | Generic => exact (lexes_fixed rfl rfl).before.until

/- The text of a row of placeholders. -/
def rowText (columnCount index : Nat) : Str :=
  '(' :: join ", ".toList ((List.range' index columnCount).map (placeholder dialect)) ++ [')']

theorem valueGroups_eq_map (columnCount index rows : Nat) :
    valueGroups dialect columnCount index rows =
      (List.range rows).map fun row => rowText dialect columnCount (index + row * columnCount) := by
  induction rows generalizing index with
  | zero => rfl
  | succ rows ih =>
    rw [valueGroups, ih, List.range_succ_eq_map, List.map_cons, List.map_map, Nat.zero_mul,
      Nat.add_zero]
    refine congrArg (rowText dialect columnCount index :: ·) (List.map_congr_left fun row _ => ?_)
    rw [Function.comp_apply, Nat.succ_mul]
    congr 1
    omega

theorem lexes_rowText (columnCount index row : Nat) :
    LexesUntil (identifierQuote dialect) (rowText dialect columnCount (index + row * columnCount))
      (rowTokens dialect columnCount index row) := by
  have hopen : Lexes (identifierQuote dialect) ['('] [.symbol '('] := by
    cases dialect <;> exact lexes_fixed rfl rfl
  have hclose : Lexes (identifierQuote dialect) [')'] [.symbol ')'] := by
    cases dialect <;> exact lexes_fixed rfl rfl
  have hmarks := lexesUntil_join (lexes_comma dialect) (by cases dialect <;> decide)
    ((List.range columnCount).map fun column =>
      (placeholder dialect (index + row * columnCount + column),
        placeholderTokens dialect (index + row * columnCount + column))) fun item hitem => by
    obtain ⟨column, _, rfl⟩ := List.mem_map.mp hitem
    exact lexes_placeholder dialect _
  have hrow := (hopen.append_until hmarks).append hclose (by simp) fun c hc => by
    obtain rfl : ')' = c := by simpa using hc
    cases dialect <;> decide
  rw [List.map_map, List.map_map] at hrow
  rw [rowText, List.range'_eq_map_range, List.map_map]
  exact hrow.before.until

theorem lex_insertSql (schema relation : Str) (columns : List Str) (rows : Nat) (text : Str)
    (h : insertSql dialect schema relation columns rows = .ok text) :
    lex (identifierQuote dialect) text =
      some (insertTokens dialect schema relation columns rows) := by
  unfold insertSql at h
  split_ifs at h
  obtain ⟨relationText, hrelation, h⟩ := bind_eq_ok_iff.mp h
  obtain ⟨columnTexts, hcolumnTexts, h⟩ := bind_eq_ok_iff.mp h
  have hinto : Lexes (identifierQuote dialect) "INSERT INTO ".toList
      [.word "INSERT".toList, .word "INTO".toList] := by
    cases dialect <;> exact lexes_fixed rfl rfl
  have hopen : Lexes (identifierQuote dialect) " (".toList [.symbol '('] := by
    cases dialect <;> exact lexes_fixed rfl rfl
  have hvalues : Lexes (identifierQuote dialect) ") VALUES ".toList
      [.symbol ')', .word "VALUES".toList] := by
    cases dialect <;> exact lexes_fixed rfl rfl
  have hgroups := lexesUntil_join (lexes_comma dialect) (by cases dialect <;> decide)
    ((List.range rows).map fun row => (rowText dialect columns.length (1 + row * columns.length),
      rowTokens dialect columns.length 1 row)) fun item hitem => by
    obtain ⟨row, _, rfl⟩ := List.mem_map.mp hitem
    exact lexes_rowText dialect columns.length 1 row
  rw [List.map_map, List.map_map] at hgroups
  have htext := ((((hinto.append_before (lexes_qualified dialect schema relation)).append hopen
    (by simp) (by cases dialect <;> decide)).append_before (lexes_columns dialect columns)).append
    hvalues (by simp) (by cases dialect <;> decide)).append_until hgroups
  rw [← qualifiedName_ok dialect schema relation relationText hrelation,
    ← mapM_quoteIdentifier_ok dialect columns columnTexts hcolumnTexts] at htext
  rw [← Except.ok.inj h, valueGroups_eq_map]
  refine htext.lex_eq.trans (congrArg some ?_)
  rw [insertTokens, nameTokens, columnTokens]
  simp only [List.append_assoc, List.cons_append, List.nil_append]
  rfl

end

end FsspecDb.Sql
