import FsspecDb.Sql.Guarded
import FsspecDb.Sql.ReadShaping

/-!
# Reads of the direct Python adapter (python.py)

`cat_file` and a read through `open` both call `_read`, which sends the statement of
`_select_sql` with the text of `where` in it as it stands.
-/

namespace FsspecDb.Python
open Text Ddl Sql

def quoteChar (dialect : Str) : Char := if dialect = "mysql".toList then '\x60' else '"'

/- What `_read` asks the database for. -/
inductive Request where
  | viewDefinition (schema relation : Option Str)
  | query (sql : Str)
  deriving Repr, DecidableEq

/-- `_read_column_values`; `infoUncached` is the call of `_info_uncached`. -/
def readColumnValues (digitAbove : Char → Bool) (infoUncached : Str → Except PyError Unit)
    (dialect : Str) (parsed : Path) : Except PyError Request := do
  let schema := parsed.schema.getD "None".toList
  let relation := parsed.relation.getD "None".toList
  let item := parsed.item.getD "None".toList
  infoUncached ('/' :: schema ++ '/' :: relation ++ "/columns/".toList ++ item)
  let limit := (lastValue "limit".toList parsed.query).getD "100".toList
  let offset := (lastValue "offset".toList parsed.query).getD "0".toList
  if isDigitText digitAbove limit = false then
    .error (.ValueError "limit must be a non-negative integer".toList)
  else if isDigitText digitAbove offset = false then
    .error (.ValueError "offset must be a non-negative integer".toList)
  else
    let column := quote dialect item
    .ok (.query ("SELECT DISTINCT ".toList ++ column ++ " FROM ".toList ++ quote dialect schema ++
      '.' :: quote dialect relation ++ " ORDER BY ".toList ++ column ++ " LIMIT ".toList ++ limit ++
      " OFFSET ".toList ++ offset))

/-- `_read`, up to the answer of the database. -/
def read (digitAbove : Char → Bool) (netlocError : Str → Option Str)
    (infoUncached : Str → Except PyError Unit) (dialect path : Str) : Except PyError Request := do
  let parsed ← parsePath netlocError path
  if parsed.kind = .definition then .ok (.viewDefinition parsed.schema parsed.relation)
  else if parsed.kind = .facet ∧ parsed.format = some "columns".toList ∧ parsed.item ≠ none then
    readColumnValues digitAbove infoUncached dialect parsed
  else if parsed.kind ≠ .data then
    -- `IsADirectoryError(path)`
    .error (.Raised path)
  else if parsed.format = some "sql".toList then
    .error (.NotImplementedError
      "DDL rendering is not supported by the direct Python adapter".toList)
  else do
    let sql ← selectSql digitAbove dialect parsed
    .ok (.query sql)

/-! ### The texts around the predicate -/

theorem quoteChar_cases (dialect : Str) : quoteChar dialect = '"' ∨ quoteChar dialect = '\x60' := by
  unfold quoteChar
  split
  · exact .inr rfl
  · exact .inl rfl

theorem quoteChar_mark (dialect : Str) : quoteChar dialect ∈ marks := by
  rcases quoteChar_cases dialect with h | h <;> rw [h] <;> decide

theorem quote_eq (dialect name : Str) : quote dialect name =
    quoteChar dialect :: Quote.double (quoteChar dialect) name ++ [quoteChar dialect] := by
  rw [← replace_doubled]
  rfl

theorem neutral_quote (dialect name : Str) : Neutral (quoteChar dialect) (quote dialect name) := by
  rw [quote_eq]
  exact neutral_quoted _ (quoteChar_cases dialect) name

theorem neutral_fixed (dialect text : Str) (h : text.all (fun c => !marks.contains c) = true) :
    Neutral (quoteChar dialect) text := by
  apply neutral_plain (quoteChar_mark dialect)
  intro c hc
  simpa using List.all_eq_true.mp h c hc

theorem neutral_join (dialect : Str) (names : List Str) :
    Neutral (quoteChar dialect) (join ", ".toList (names.map (quote dialect))) := by
  induction names with
  | nil => exact neutral_nil _
  | cons name names ih =>
    cases names with
    | nil => simpa [join] using neutral_quote dialect name
    | cons next names =>
      have hcomma : Neutral (quoteChar dialect) ", ".toList := neutral_fixed dialect _ (by decide)
      have hall := (neutral_quote dialect name).append (hcomma.append ih)
      rw [List.map_cons, List.map_cons, join, List.intercalate_cons_cons, List.append_assoc]
      exact hall

/- A blank before the star, and one behind it. -/
theorem neutral_star (dialect : Str) : Neutral (quoteChar dialect) ['*'] := by
  intro depth last hdash hslash
  refine ⟨'*', by decide, by decide, ?_⟩
  rcases quoteChar_cases dialect with h | h <;>
    simp [h, scan, scanStep, opensQuote, hslash]

/-- `SELECT` and `FROM` with the columns and the relation, where the predicate comes next. -/
def selectText (dialect : Str) (query : List (Str × Str)) (schema relation : Str) : Str :=
  "SELECT ".toList ++ (truthy query "columns".toList).elim ['*'] (fun columns =>
    join ", ".toList ((columns.splitOn ',').map (quote dialect))) ++ " FROM ".toList ++
    quote dialect schema ++ '.' :: quote dialect relation

theorem neutral_selectText (dialect : Str) (query : List (Str × Str)) (schema relation : Str) :
    Neutral (quoteChar dialect) (selectText dialect query schema relation) := by
  have hselect : Neutral (quoteChar dialect) "SELECT ".toList :=
    neutral_fixed dialect _ (by decide)
  have hfrom : Neutral (quoteChar dialect) " FROM ".toList := neutral_fixed dialect _ (by decide)
  have hdot : Neutral (quoteChar dialect) ['.'] := neutral_fixed dialect _ (by decide)
  have hcolumns : Neutral (quoteChar dialect) ((truthy query "columns".toList).elim ['*']
      fun columns => join ", ".toList ((columns.splitOn ',').map (quote dialect))) := by
    cases truthy query "columns".toList with
    | none => exact neutral_star dialect
    | some columns => exact neutral_join dialect _
  exact ((hselect.append hcolumns).append hfrom).append (neutral_quote dialect schema)
    |>.append (hdot.append (neutral_quote dialect relation))

/-! ### Limit and offset -/

/- A number behind its keyword, or nothing. -/
def Clause (digitAbove : Char → Bool) (keyword text : Str) : Prop :=
  text = [] ∨ ∃ digits, isDigitText digitAbove digits = true ∧
    text = ' ' :: keyword ++ ' ' :: digits

/- What the adapter asks of `limit` and `offset`. -/
def Numeric (digitAbove : Char → Bool) (query : List (Str × Str)) (key : Str) : Prop :=
  ∀ value, truthy query key = some value → isDigitText digitAbove value = true

theorem numberText_ok (digitAbove : Char → Bool) (keyword key : Str) (query : List (Str × Str))
    (h : Numeric digitAbove query key) :
    ∃ text, numberText digitAbove keyword key query = .ok text ∧
      Clause digitAbove keyword text := by
  unfold numberText
  cases hvalue : truthy query key with
  | none => exact ⟨[], rfl, .inl rfl⟩
  | some value =>
    have hdigits := h value hvalue
    exact ⟨_, if_pos hdigits, .inr ⟨value, hdigits, rfl⟩⟩

theorem numberText_error (digitAbove : Char → Bool) (keyword key : Str)
    (query : List (Str × Str)) (h : ¬ Numeric digitAbove query key) :
    ∃ msg, numberText digitAbove keyword key query = .error (.ValueError msg) := by
  unfold Numeric at h
  push Not at h
  obtain ⟨value, hvalue, hdigits⟩ := h
  refine ⟨key ++ " must be a non-negative integer".toList, ?_⟩
  unfold numberText
  rw [hvalue]
  exact if_neg hdigits

theorem neutral_digits (digitAbove : Char → Bool) (dialect digits : Str)
    (h : isDigitText digitAbove digits = true) : Neutral (quoteChar dialect) digits := by
  unfold isDigitText at h
  have hall := (Bool.and_eq_true_iff.mp h).2
  apply neutral_plain (quoteChar_mark dialect)
  intro c hc hmark
  have hdigit := List.all_eq_true.mp hall c hc
  have hmarks : (marks.all fun d => decide (d.toNat < 128) && !d.isDigit) = true := by decide
  have hplain := List.all_eq_true.mp hmarks c hmark
  simp only [Bool.and_eq_true, decide_eq_true_eq, Bool.not_eq_true'] at hplain
  rw [if_pos hplain.1, hplain.2] at hdigit
  exact absurd hdigit (by decide)

/- Whatever character came before. -/
theorem scan_clause (digitAbove : Char → Bool) (dialect keyword text : Str)
    (hkeyword : keyword.all (fun c => !marks.contains c) = true)
    (h : Clause digitAbove keyword text) (depth : Nat) (last : Char) : ∃ next,
      scan (quoteChar dialect) ⟨depth, none, last⟩ text = some ⟨depth, none, next⟩ := by
  rcases h with rfl | ⟨digits, hdigits, rfl⟩
  · exact ⟨last, rfl⟩
  · have hblank : Neutral (quoteChar dialect) [' '] := neutral_fixed dialect _ (by decide)
    have hnumber := (neutral_fixed dialect keyword hkeyword).append
      (hblank.append (neutral_digits digitAbove dialect digits hdigits))
    exact scan_blank (quoteChar_mark dialect) _ hnumber depth last

/-! ### The predicate in the statement -/

/-- The statement is scanned to its end, with the predicate between `WHERE` and the numbers as
text that is guarded by itself. -/
structure OneExpression (digitAbove : Char → Bool) (q : Char) (sql predicate : Str) : Prop where
  placed : ∃ before limit offset, sql = before ++ " WHERE ".toList ++ predicate ++ limit ++ offset ∧
    Guarded q before ∧ Clause digitAbove "LIMIT".toList limit ∧
    Clause digitAbove "OFFSET".toList offset
  guarded : Guarded q predicate
  statement : Guarded q sql

theorem oneExpression_of_guarded (digitAbove : Char → Bool) (dialect predicate : Str)
    (before limit offset : Str) (hbefore : Neutral (quoteChar dialect) before)
    (hlimit : Clause digitAbove "LIMIT".toList limit)
    (hoffset : Clause digitAbove "OFFSET".toList offset)
    (hpredicate : Guarded (quoteChar dialect) predicate) :
    OneExpression digitAbove (quoteChar dialect)
      (before ++ " WHERE ".toList ++ predicate ++ limit ++ offset) predicate := by
  refine ⟨⟨before, limit, offset, rfl, hbefore.guarded, hlimit, hoffset⟩, hpredicate, ?_⟩
  obtain ⟨afterBefore, hdash, hslash, hscanBefore⟩ := hbefore 0 ' ' (by decide) (by decide)
  -- behind `WHERE ` the scanner is where the predicate by itself begins
  have hwhere : scan (quoteChar dialect) ⟨0, none, afterBefore⟩ " WHERE ".toList =
      some Scan.start := by
    rcases quoteChar_cases dialect with h | h <;>
      simp [h, scan, scanStep, opensQuote, Scan.start]
  obtain ⟨afterPredicate, hscanPredicate⟩ := (guarded_iff _ _).mp hpredicate
  obtain ⟨afterLimit, hscanLimit⟩ :=
    scan_clause digitAbove dialect "LIMIT".toList limit (by decide) hlimit 0 afterPredicate
  obtain ⟨afterOffset, hscanOffset⟩ :=
    scan_clause digitAbove dialect "OFFSET".toList offset (by decide) hoffset 0 afterLimit
  rw [guarded_iff]
  refine ⟨afterOffset, ?_⟩
  have hstart : scan (quoteChar dialect) .start before = some ⟨0, none, afterBefore⟩ := hscanBefore
  rw [scan_append, scan_append, scan_append, scan_append, hstart, Option.bind_some, hwhere,
    Option.bind_some, hscanPredicate, Option.bind_some, hscanLimit, Option.bind_some, hscanOffset]

/-! ### Reads of a data path -/

theorem classifyParts_data (path : Str) (parts : List Str) (query : List (Str × Str))
    (parsed : Path) (h : classifyParts path parts query = .ok parsed)
    (hkind : parsed.kind = .data) : ∃ schema relation,
      parsed.schema = some schema ∧ parsed.relation = some relation := by
  unfold classifyParts at h
  split at h
  · rw [← Except.ok.inj h] at hkind
    simp at hkind
  · split at h
    · rw [← Except.ok.inj h]
      exact ⟨_, _, rfl, rfl⟩
    · rw [← Except.ok.inj h] at hkind
      simp at hkind
  · split at h
    · rw [← Except.ok.inj h] at hkind
      simp at hkind
    · split at h
      · rw [← Except.ok.inj h] at hkind
        simp at hkind
      · simp at h
  · split at h
    · rw [← Except.ok.inj h] at hkind
      simp at hkind
    · simp at h
  · simp at h

theorem parsePath_data (netlocError : Str → Option Str) (path : Str) (parsed : Path)
    (h : parsePath netlocError path = .ok parsed) (hkind : parsed.kind = .data) :
    ∃ schema relation, parsed.schema = some schema ∧ parsed.relation = some relation := by
  unfold parsePath at h
  split at h
  · simp at h
  · dsimp only at h
    split at h
    · rw [← Except.ok.inj h] at hkind
      simp at hkind
    · exact classifyParts_data path _ _ parsed h hkind

section
variable (digitAbove : Char → Bool) (dialect : Str) (parsed : Path)

/- Of the data path `parsed`. -/
theorem selectSql_error (schema relation : Str) (hschema : parsed.schema = some schema)
    (hrelation : parsed.relation = some relation)
    (h : ¬ (Numeric digitAbove parsed.query "limit".toList ∧
      Numeric digitAbove parsed.query "offset".toList)) :
    ∃ msg, selectSql digitAbove dialect parsed = .error (.ValueError msg) := by
  unfold selectSql
  rw [hschema, hrelation]
  by_cases hlimit : Numeric digitAbove parsed.query "limit".toList
  · obtain ⟨limit, hok, -⟩ := numberText_ok digitAbove "LIMIT".toList _ _ hlimit
    obtain ⟨msg, herror⟩ := numberText_error digitAbove "OFFSET".toList "offset".toList
      parsed.query fun hoffset => h ⟨hlimit, hoffset⟩
    exact ⟨msg, by simp only [hok, herror, bind, Except.bind]⟩
  · obtain ⟨msg, herror⟩ := numberText_error digitAbove "LIMIT".toList "limit".toList _ hlimit
    exact ⟨msg, by simp only [herror, bind, Except.bind]⟩

theorem selectSql_ok (schema relation : Str) (hschema : parsed.schema = some schema)
    (hrelation : parsed.relation = some relation)
    (hlimit : Numeric digitAbove parsed.query "limit".toList)
    (hoffset : Numeric digitAbove parsed.query "offset".toList) :
    ∃ limit offset, Clause digitAbove "LIMIT".toList limit ∧
      Clause digitAbove "OFFSET".toList offset ∧
      selectSql digitAbove dialect parsed =
        .ok (selectText dialect parsed.query schema relation ++
          (truthy parsed.query "where".toList).elim [] (fun predicate =>
            " WHERE ".toList ++ predicate) ++ limit ++ offset) := by
  obtain ⟨limit, hlimitOk, hlimitText⟩ := numberText_ok digitAbove "LIMIT".toList _ _ hlimit
  obtain ⟨offset, hoffsetOk, hoffsetText⟩ := numberText_ok digitAbove "OFFSET".toList _ _ hoffset
  refine ⟨limit, offset, hlimitText, hoffsetText, ?_⟩
  unfold selectSql
  rw [hschema, hrelation]
  dsimp only
  rw [hlimitOk, hoffsetOk]
  rfl

end

/-- A read of the path raises `ValueError`, or sends one statement with the text of `where`,
if there is one, as one expression. -/
def SafeRead (digitAbove : Char → Bool) (netlocError : Str → Option Str)
    (infoUncached : Str → Except PyError Unit) (dialect path : Str)
    (query : List (Str × Str)) : Prop :=
  (∃ msg, read digitAbove netlocError infoUncached dialect path = .error (.ValueError msg)) ∨
  ∃ sql, read digitAbove netlocError infoUncached dialect path = .ok (.query sql) ∧
    ∀ predicate, truthy query "where".toList = some predicate →
      OneExpression digitAbove (quoteChar dialect) sql predicate

theorem direct_where_iff (digitAbove : Char → Bool) (netlocError : Str → Option Str)
    (infoUncached : Str → Except PyError Unit) (dialect path : Str) (parsed : Path)
    (hparsed : parsePath netlocError path = .ok parsed) (hkind : parsed.kind = .data)
    (hformat : parsed.format ≠ some "sql".toList) :
    SafeRead digitAbove netlocError infoUncached dialect path parsed.query ↔
      (Numeric digitAbove parsed.query "limit".toList →
        Numeric digitAbove parsed.query "offset".toList →
        ∀ predicate, truthy parsed.query "where".toList = some predicate →
          Guarded (quoteChar dialect) predicate) := by
  obtain ⟨schema, relation, hschema, hrelation⟩ :=
    parsePath_data netlocError path parsed hparsed hkind
  have hread : read digitAbove netlocError infoUncached dialect path =
      (selectSql digitAbove dialect parsed).map Request.query := by
    simp only [read, hparsed, hkind, hformat, bind, Except.bind, reduceCtorEq, false_and,
      if_false, ne_eq, not_true_eq_false]
    cases selectSql digitAbove dialect parsed <;> rfl
  unfold SafeRead
  rw [hread]
  by_cases hnumeric : Numeric digitAbove parsed.query "limit".toList ∧
      Numeric digitAbove parsed.query "offset".toList
  · obtain ⟨hlimit, hoffset⟩ := hnumeric
    obtain ⟨limit, offset, hlimitText, hoffsetText, hselect⟩ :=
      selectSql_ok digitAbove dialect parsed schema relation hschema hrelation hlimit hoffset
    rw [hselect]
    constructor
    · intro h _ _ predicate hpredicate
      rcases h with ⟨msg, herror⟩ | ⟨sql, hsql, hone⟩
      · simp [Except.map] at herror
      · exact (hone predicate hpredicate).guarded
    · intro h
      refine .inr ⟨_, rfl, fun predicate hpredicate => ?_⟩
      rw [hpredicate, Option.elim_some, ← List.append_assoc]
      exact oneExpression_of_guarded digitAbove dialect predicate _ limit offset
        (neutral_selectText dialect parsed.query schema relation) hlimitText hoffsetText
        (h hlimit hoffset predicate hpredicate)
  · obtain ⟨msg, herror⟩ :=
      selectSql_error digitAbove dialect parsed schema relation hschema hrelation hnumeric
    rw [herror]
    constructor
    · exact fun _ hlimit hoffset => absurd ⟨hlimit, hoffset⟩ hnumeric
    · exact fun _ => .inl ⟨msg, rfl⟩

theorem direct_where_iff_score :
    SafeRead (fun _ => false) (fun _ => none) (fun _ => .ok ()) "sqlite".toList
      "/main/users.arrow?where=(score%20%3E%2010)&limit=5".toList
      [("where".toList, "(score > 10)".toList), ("limit".toList, "5".toList)] := by
  have hparsed : parsePath (fun _ => none)
      "/main/users.arrow?where=(score%20%3E%2010)&limit=5".toList =
      .ok ⟨some "main".toList, some "users".toList, .data, none, some "arrow".toList,
        [("where".toList, "(score > 10)".toList), ("limit".toList, "5".toList)]⟩ := by decide
  apply (direct_where_iff (fun _ => false) (fun _ => none) (fun _ => .ok ()) "sqlite".toList _ _
    hparsed rfl (by decide)).mpr
  intro _ _ predicate hpredicate
  have hvalue : truthy [("where".toList, "(score > 10)".toList), ("limit".toList, "5".toList)]
      "where".toList = some "(score > 10)".toList := by decide
  rw [← Option.some.inj (hvalue.symm.trans hpredicate)]
  decide

/- The payload that the documentation says is rejected. -/
theorem direct_where_drop_table :
    read (fun _ => false) (fun _ => none) (fun _ => .ok ()) "sqlite".toList
        "/main/users.arrow?where=1); DROP TABLE x;--".toList =
      .ok (.query "SELECT * FROM \"main\".\"users\" WHERE 1); DROP TABLE x;--".toList) ∧
    ¬ SafeRead (fun _ => false) (fun _ => none) (fun _ => .ok ()) "sqlite".toList
      "/main/users.arrow?where=1); DROP TABLE x;--".toList
      [("where".toList, "1); DROP TABLE x;--".toList)] := by
  have hread : read (fun _ => false) (fun _ => none) (fun _ => .ok ()) "sqlite".toList
      "/main/users.arrow?where=1); DROP TABLE x;--".toList =
      .ok (.query "SELECT * FROM \"main\".\"users\" WHERE 1); DROP TABLE x;--".toList) := by
    decide
  refine ⟨hread, fun h => ?_⟩
  rcases h with ⟨msg, herror⟩ | ⟨sql, _, hone⟩
  · rw [hread] at herror
    simp at herror
  · have hguarded := (hone "1); DROP TABLE x;--".toList (by decide)).guarded
    exact absurd hguarded (by decide)

end FsspecDb.Python
