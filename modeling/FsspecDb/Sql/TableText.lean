import FsspecDb.Lib.Nesting
import FsspecDb.Sql.Grammar

/-!
# Reading a CREATE TABLE

How a database reads the definition of a table: a column is a name, its type, NOT NULL and a
default, and the text of a type or a default goes on while its parentheses are open. Which types
and defaults there are is for the database to say.
-/

namespace FsspecDb.Sql
open Text

/-- A column of a definition, with the type and the default as tokens. -/
structure DeclaredColumn where
  name : Str
  declared : List Token
  notNull : Bool
  default : Option (List Token)
  deriving Repr, DecidableEq

/-! ### Tokens between separators -/

def Token.isWhite : Token → Bool
  | .symbol c => c.isWhitespace
  | _ => false

/- The tokens without the line breaks. -/
def tokensOf (q : Char) (text : Str) : Option (List Token) :=
  (lex q text).map fun tokens => tokens.filter fun token => !token.isWhite

/-- A character that ends whatever token stands before it. -/
def Separator (q c : Char) : Prop := isWordChar c = false ∧ c ≠ q ∧ c ≠ '\'' ∧ c ≠ '"'

/- The quote of a token that is open. -/
def LexMode.Quotes (q : Char) : LexMode → Prop
  | .quoted close _ | .closed close _ => close = q ∨ close = '\'' ∨ close = '"'
  | _ => True

theorem quotes_opening (q c : Char) : (opening q c).2.Quotes q := by
  unfold opening
  split
  · trivial
  · split
    · next hquote => exact hquote
    · split
      · trivial
      · trivial

theorem quotes_lexStep (q : Char) (mode : LexMode) (c : Char) (h : mode.Quotes q) :
    (lexStep q mode c).2.Quotes q := by
  cases mode with
  | blank => exact quotes_opening q c
  | word read =>
    rw [lexStep]
    split
    · trivial
    · exact quotes_opening q c
  | quoted close read =>
    rw [lexStep]
    split
    · exact h
    · exact h
  | closed close read =>
    rw [lexStep]
    split
    · exact h
    · exact quotes_opening q c

/- In front of a separator a token ends as it does at the end of the text. -/
theorem lexFrom_separator {q : Char} {mode : LexMode} (hmode : mode.Quotes q)
    {tokens : List Token} (h : lexEnd q mode = some tokens) {c : Char} (hc : Separator q c)
    (rest : Str) :
    lexFrom q mode (c :: rest) = (lex q (c :: rest)).map fun more => tokens ++ more := by
  have hblank : lex q (c :: rest) =
      (lexFrom q (opening q c).2 rest).map fun more => (opening q c).1 ++ more := lexFrom_cons ..
  rw [lexFrom_cons, hblank, Option.map_map]
  cases mode with
  | blank =>
    obtain rfl := Option.some.inj h
    rfl
  | word read =>
    obtain rfl := Option.some.inj h
    rw [lexStep, if_neg (by simp [hc.1])]
    rfl
  | quoted close read => cases h
  | closed close read =>
    obtain rfl := Option.some.inj h
    have hclose : c ≠ close := by
      rcases hmode with rfl | rfl | rfl
      · exact hc.2.1
      · exact hc.2.2.1
      · exact hc.2.2.2
    rw [lexStep, if_neg hclose]
    rfl

theorem lex_separator {q : Char} {text : Str} {tokens : List Token}
    (h : lex q text = some tokens) {c : Char} (hc : Separator q c) (rest : Str) :
    lex q (text ++ c :: rest) = (lex q (c :: rest)).map fun more => tokens ++ more := by
  obtain ⟨ending, hending, rfl⟩ := Option.map_eq_some_iff.mp h
  have hmode := Mealy.run_invariant (quotes_lexStep q) .blank text trivial
  have hrun : lex q (text ++ c :: rest) =
      (lexFrom q (Mealy.run (lexStep q) .blank text).2 (c :: rest)).map fun more =>
        (Mealy.run (lexStep q) .blank text).1.flatten ++ more := by
    simp only [lex, lexFrom, Mealy.run_append, List.flatten_append, Option.map_map,
      Function.comp_def, List.append_assoc]
  rw [hrun, lexFrom_separator hmode hending hc, Option.map_map]
  simp only [Function.comp_def, List.append_assoc]

/-- Where a separator stands between two texts their tokens follow each other. -/
theorem tokensOf_append {q : Char} {text text' : Str} {tokens tokens' : List Token} {c : Char}
    (h : tokensOf q text = some tokens) (hc : Separator q c)
    (h' : tokensOf q (c :: text') = some tokens') :
    tokensOf q (text ++ c :: text') = some (tokens ++ tokens') := by
  obtain ⟨all, hlex, rfl⟩ := Option.map_eq_some_iff.mp h
  obtain ⟨all', hlex', rfl⟩ := Option.map_eq_some_iff.mp h'
  rw [tokensOf, lex_separator hlex hc, hlex', Option.map_some, Option.map_some,
    List.filter_append]

theorem tokensOf_cons {q c : Char} (text : Str) (tokens : List Token)
    (h : opening q c = (tokens, .blank)) :
    tokensOf q (c :: text) = (tokensOf q text).map fun more =>
      tokens.filter (fun token => !token.isWhite) ++ more := by
  have hstep : lexStep q .blank c = (tokens, .blank) := h
  rw [tokensOf, lex, lexFrom_cons, hstep, tokensOf, lex, Option.map_map, Option.map_map]
  congr 1
  funext more
  exact List.filter_append tokens more

section
variable (dialect : Dialect)

theorem tokensOf_symbol (c : Char) (text : Str) (hc : Separator (identifierQuote dialect) c)
    (hspace : c ≠ ' ') (hwhite : c.isWhitespace = false) :
    tokensOf (identifierQuote dialect) (c :: text) =
      (tokensOf (identifierQuote dialect) text).map fun more => .symbol c :: more := by
  have hopening : opening (identifierQuote dialect) c = ([.symbol c], .blank) := by
    rw [opening, if_neg hspace, if_neg (by simpa using ⟨hc.2.1, hc.2.2.1, hc.2.2.2⟩),
      if_neg (by simp [hc.1])]
  rw [tokensOf_cons text _ hopening]
  simp [Token.isWhite, hwhite]

theorem tokensOf_blank (c : Char) (text : Str) (hc : c = ' ' ∨ c = '\n') :
    tokensOf (identifierQuote dialect) (c :: text) = tokensOf (identifierQuote dialect) text := by
  rcases hc with rfl | rfl
  · have hopening : opening (identifierQuote dialect) ' ' = ([], .blank) := if_pos rfl
    rw [tokensOf_cons text _ hopening]
    exact Option.map_id'
  · have hopening : opening (identifierQuote dialect) '\n' = ([.symbol '\n'], .blank) := by
      cases dialect <;> decide
    rw [tokensOf_cons text _ hopening]
    exact Option.map_id'

/- Two texts with a space between them. -/
theorem tokensOf_space {text text' : Str} {tokens tokens' : List Token}
    (h : tokensOf (identifierQuote dialect) text = some tokens)
    (h' : tokensOf (identifierQuote dialect) text' = some tokens') :
    tokensOf (identifierQuote dialect) (text ++ ' ' :: text') = some (tokens ++ tokens') := by
  refine tokensOf_append h ?_ ((tokensOf_blank dialect ' ' text' (.inl rfl)).trans h')
  cases dialect <;> exact ⟨by decide, by decide, by decide, by decide⟩

theorem tokensOf_identifier (name : Str) :
    tokensOf (identifierQuote dialect) (quotedName (identifierQuote dialect) name) =
      some [.ident name] := by
  rw [tokensOf, (lexes_identifier dialect name).lex_eq]
  rfl

end

/-! ### The reader -/

def opensParen (token : Token) : Bool := token = .symbol '('

def closesParen (token : Token) : Bool := token = .symbol ')'

def keyword (word : Str) : Token → Bool
  | .word text => text.map Char.toUpper = word
  | _ => false

/- What comes after the definition of a column. -/
def endsItem (token : Token) : Bool := token = .symbol ',' || token = .symbol ')'

/- What comes after the type of a column. -/
def startsClause (token : Token) : Bool :=
  keyword "NOT".toList token || keyword "DEFAULT".toList token

/-- What a database takes as the type of a column and as its default. -/
structure ColumnGrammar where
  isType : List Token → Bool
  isDefault : List Token → Bool

def beginsComment : List Token → Bool
  | .symbol '-' :: .symbol '-' :: _ => true
  | .symbol '/' :: .symbol '*' :: _ => true
  | .symbol '#' :: _ => true
  | _ => false

/- What some databases cut otherwise: a backslash quotes in MySQL, a dollar in PostgreSQL. -/
def quotesOtherwise : Token → Bool
  | .literal text => text.any fun c => c = '\\'
  | .symbol c => c = '$'
  | _ => false

/-- Tokens that every database has at their place. -/
def isPlain (tokens : List Token) : Bool :=
  !tokens.tails.any beginsComment && !tokens.any quotesOtherwise

def ColumnGrammar.takes (grammar : ColumnGrammar) (column : DeclaredColumn) : Bool :=
  grammar.isType column.declared && isPlain column.declared &&
    column.default.all fun tokens => grammar.isDefault tokens && isPlain tokens

def readDefault : List Token → Option (Option (List Token))
  | [] => some none
  | token :: tokens => if keyword "DEFAULT".toList token then some (some tokens) else none

def readClauses : List Token → Option (Bool × Option (List Token))
  | first :: second :: tokens =>
    if keyword "NOT".toList first && keyword "NULL".toList second then
      (readDefault tokens).map fun default => (true, default)
    else (readDefault (first :: second :: tokens)).map fun default => (false, default)
  | tokens => (readDefault tokens).map fun default => (false, default)

section
variable (grammar : ColumnGrammar)

def readColumn : List Token → Option (DeclaredColumn × List Token)
  | .ident name :: tokens => do
    let (item, rest) := Nesting.cut opensParen closesParen endsItem 0 tokens
    let (declared, clauses) := Nesting.cut opensParen closesParen startsClause 0 item
    let (notNull, default) ← readClauses clauses
    let column : DeclaredColumn := ⟨name, declared, notNull, default⟩
    if grammar.takes column then some (column, rest) else none
  | _ => none

/- The first argument bounds the number of columns. -/
def readColumns : Nat → List Token → Option (List DeclaredColumn)
  | 0, _ => none
  | n + 1, tokens => do
    let (column, rest) ← readColumn grammar tokens
    match rest with
    | [.symbol ')', .symbol ';'] => some [column]
    | .symbol ',' :: more => do
      let columns ← readColumns n more
      some (column :: columns)
    | _ => none

/-- The table that a text creates, for a database that quotes names with `q` and has this grammar
of columns. -/
def readTable (q : Char) (text : Str) : Option ((Str × Str) × List DeclaredColumn) := do
  let tokens ← tokensOf q text
  let (table, rest) ← parseTable (← afterWords ["CREATE".toList, "TABLE".toList] tokens)
  match rest with
  | .symbol '(' :: rest => do
    let columns ← readColumns grammar rest.length rest
    some (table, columns)
  | _ => none

end

/-! ### Reading what was written -/

/-- No parenthesis is left open, and neither the type nor the default ends before its end. -/
structure DeclaredColumn.Closed (column : DeclaredColumn) : Prop where
  declared : Nesting.Whole opensParen closesParen
    (fun token => endsItem token || startsClause token) 0 column.declared
  default : ∀ tokens ∈ column.default, Nesting.Whole opensParen closesParen endsItem 0 tokens

def clauseTokens (column : DeclaredColumn) : List Token :=
  (if column.notNull then [.word "NOT".toList, .word "NULL".toList] else []) ++
    column.default.elim [] fun tokens => .word "DEFAULT".toList :: tokens

def columnDefTokens (column : DeclaredColumn) : List Token :=
  .ident column.name :: column.declared ++ clauseTokens column

theorem readClauses_tokens (column : DeclaredColumn) :
    readClauses (clauseTokens column) = some (column.notNull, column.default) := by
  obtain ⟨name, declared, notNull, default⟩ := column
  cases notNull with
  | true => cases default <;> rfl
  | false =>
    cases default with
    | none => rfl
    | some tokens => cases tokens <;> rfl

theorem clauseTokens_whole (column : DeclaredColumn) (h : column.Closed) :
    Nesting.Whole opensParen closesParen endsItem 0 (clauseTokens column) := by
  obtain ⟨name, declared, notNull, default⟩ := column
  refine Nesting.Whole.append ?_ ?_
  · cases notNull with
    | true =>
      have hwhole : Nesting.Whole opensParen closesParen endsItem 0
          [.word "NOT".toList, .word "NULL".toList] := by decide
      exact hwhole
    | false => exact rfl
  · cases default with
    | none => exact rfl
    | some tokens => exact ⟨by decide, h.default tokens rfl⟩

theorem clauseTokens_head (column : DeclaredColumn) :
    ∀ token ∈ (clauseTokens column).head?, startsClause token = true := by
  obtain ⟨name, declared, notNull, default⟩ := column
  intro token htoken
  cases notNull with
  | true =>
    obtain rfl := Option.some.inj htoken
    decide
  | false =>
    cases default with
    | none => cases htoken
    | some tokens =>
      obtain rfl := Option.some.inj htoken
      decide

section
variable {grammar : ColumnGrammar}

theorem readColumn_tokens (column : DeclaredColumn) (h : column.Closed)
    (htakes : grammar.takes column = true) (rest : List Token)
    (hrest : ∀ token ∈ rest.head?, endsItem token = true) :
    readColumn grammar (columnDefTokens column ++ rest) = some (column, rest) := by
  have hitem : Nesting.Whole opensParen closesParen endsItem 0
      (column.declared ++ clauseTokens column) :=
    (h.declared.imp fun token htoken => by simp [htoken]).append (clauseTokens_whole column h)
  have hdeclared : Nesting.cut opensParen closesParen startsClause 0
      (column.declared ++ clauseTokens column) = (column.declared, clauseTokens column) :=
    Nesting.cut_append (h.declared.imp fun token htoken => by simp [htoken])
      (clauseTokens_head column)
  have hcut := Nesting.cut_append hitem hrest
  rw [columnDefTokens, List.cons_append, List.cons_append, readColumn, hcut]
  simp only [hdeclared, readClauses_tokens, Option.bind_eq_bind, Option.bind_some]
  exact if_pos htakes

theorem readColumns_tokens (columns : List DeclaredColumn) (n : Nat) (hne : columns ≠ [])
    (hn : columns.length ≤ n) (h : ∀ column ∈ columns, column.Closed)
    (htakes : ∀ column ∈ columns, grammar.takes column = true) :
    readColumns grammar n
        (commaTokens (columns.map columnDefTokens) ++ [.symbol ')', .symbol ';']) =
      some columns := by
  induction columns generalizing n with
  | nil => exact absurd rfl hne
  | cons column columns ih =>
    obtain ⟨n, rfl⟩ : ∃ m, n = m + 1 := ⟨n - 1, by rw [List.length_cons] at hn; omega⟩
    rw [List.forall_mem_cons] at h htakes
    cases columns with
    | nil =>
      have hcolumn := readColumn_tokens column h.1 htakes.1 [.symbol ')', .symbol ';']
        fun token htoken => by obtain rfl := Option.some.inj htoken; decide
      simp only [List.map_cons, List.map_nil, commaTokens]
      rw [readColumns, hcolumn]
      rfl
    | cons next columns =>
      have hmore := ih n (List.cons_ne_nil next columns) (Nat.le_of_succ_le_succ hn) h.2 htakes.2
      have hcolumn := readColumn_tokens column h.1 htakes.1
        (.symbol ',' :: (commaTokens ((next :: columns).map columnDefTokens) ++
          [.symbol ')', .symbol ';']))
        fun token htoken => by obtain rfl := Option.some.inj htoken; decide
      have hjoin : commaTokens ((column :: next :: columns).map columnDefTokens) ++
          [.symbol ')', .symbol ';'] = columnDefTokens column ++
            .symbol ',' :: (commaTokens ((next :: columns).map columnDefTokens) ++
              [.symbol ')', .symbol ';']) := by
        simp [commaTokens]
      rw [hjoin, readColumns, hcolumn]
      simp only [Option.bind_eq_bind, Option.bind_some, hmore]

end

theorem length_commaTokens (items : List (List Token)) (h : ∀ item ∈ items, item ≠ []) :
    items.length ≤ (commaTokens items).length := by
  induction items with
  | nil => exact Nat.zero_le _
  | cons item items ih =>
    rw [List.forall_mem_cons] at h
    have hitem := List.length_pos_iff.mpr h.1
    cases items with
    | nil => exact hitem
    | cons next items =>
      have hmore := ih h.2
      have hjoin : commaTokens (item :: next :: items) =
          item ++ .symbol ',' :: commaTokens (next :: items) := by
        simp [commaTokens]
      rw [hjoin, List.length_append]
      simp only [List.length_cons] at hmore ⊢
      omega

theorem readTable_eq {q : Char} {grammar : ColumnGrammar} {text schema relation : Str}
    {columns : List DeclaredColumn} (hne : columns ≠ []) (h : ∀ column ∈ columns, column.Closed)
    (htakes : ∀ column ∈ columns, grammar.takes column = true)
    (htokens : tokensOf q text = some (.word "CREATE".toList :: .word "TABLE".toList ::
      nameTokens schema relation ++ .symbol '(' :: (commaTokens (columns.map columnDefTokens) ++
        [.symbol ')', .symbol ';']))) :
    readTable grammar q text = some ((schema, relation), columns) := by
  have hlength : columns.length ≤ (commaTokens (columns.map columnDefTokens) ++
      [Token.symbol ')', Token.symbol ';']).length := by
    have hitems := length_commaTokens (columns.map columnDefTokens) fun item hitem => by
      obtain ⟨column, _, rfl⟩ := List.mem_map.mp hitem
      exact List.cons_ne_nil _ _
    rw [List.length_map] at hitems
    rw [List.length_append]
    omega
  have hcolumns := readColumns_tokens columns _ hne hlength h htakes
  rw [readTable, htokens]
  have htable (rest : List Token) : parseTable (nameTokens schema relation ++ rest) =
      some ((schema, relation), rest) := rfl
  simp only [Option.bind_eq_bind, Option.bind_some, List.cons_append, afterWords_eq,
    afterWords_nil, htable, hcolumns]

end FsspecDb.Sql
