import FsspecDb.Ddl.Paths
import FsspecDb.Sql.Intended

/-!
# Read shaping in Rust and in Python (python.py)

A data path shapes its read by query parameters. `DatabaseFs` builds the statement with
`select_options_from_query` and `select_sql`, `PyDatabaseFileSystem` with `_select_sql`.
-/

namespace FsspecDb.Python
open Text

def quote (dialect name : Str) : Str :=
  let quote := if dialect = "mysql".toList then '\x60' else '"'
  quote :: replace name quote [quote, quote] ++ [quote]

/-- `str.isdigit`; `digitAbove` says it of a character outside ASCII. -/
def isDigitText (digitAbove : Char → Bool) (s : Str) : Bool :=
  !s.isEmpty && s.all fun c => if c.toNat < 128 then c.isDigit else digitAbove c

/-- `options.get(key)` where it is true, so not the empty text. -/
def truthy (options : List (Str × Str)) (key : Str) : Option Str :=
  (Sql.lastValue key options).filter fun value => !value.isEmpty

/-- A number behind its keyword, if there is one. -/
def numberText (digitAbove : Char → Bool) (keyword key : Str) (options : List (Str × Str)) :
    Except Ddl.PyError Str :=
  match truthy options key with
  | none => .ok []
  | some value =>
    if isDigitText digitAbove value then .ok (' ' :: keyword ++ ' ' :: value)
    else .error (.ValueError (key ++ " must be a non-negative integer".toList))

def selectSql (digitAbove : Char → Bool) (dialect : Str) (path : Ddl.Path) :
    Except Ddl.PyError Str :=
  match path.schema, path.relation with
  | some schema, some relation => do
    let projection := (truthy path.query "columns".toList).elim ['*'] fun columns =>
      join ", ".toList ((columns.splitOn ',').map (quote dialect))
    let condition := (truthy path.query "where".toList).elim [] fun predicate =>
      " WHERE ".toList ++ predicate
    let limit ← numberText digitAbove "LIMIT".toList "limit".toList path.query
    let offset ← numberText digitAbove "OFFSET".toList "offset".toList path.query
    .ok ("SELECT ".toList ++ projection ++ " FROM ".toList ++ quote dialect schema ++
      '.' :: quote dialect relation ++ condition ++ limit ++ offset)
  | _, _ => .error (.Raised "'NoneType' object has no attribute 'replace'".toList)

end FsspecDb.Python

namespace FsspecDb.Sql
open Text Checked

/-- The statement that `DatabaseFs::open_db` sends for a data path. -/
def readSql (sqlparser : SqlParser) (dialect : Dialect) (schema relation : Str)
    (query : List (Str × Str)) : Except DbError Str := do
  let options ← selectOptionsFromQuery sqlparser dialect query
  selectSql dialect schema relation options

/-- A column's name that a list between commas can hold. -/
def ListedColumn (name : Str) : Prop :=
  ValidIdentifier name ∧ ',' ∉ name ∧ trim name = name

/-- The documented parameters with the values they are documented for. -/
structure ShapingQuery (query : List (Str × Str)) : Prop where
  keys : ∀ parameter ∈ query, parameter.1 = "columns".toList ∨ parameter.1 = "limit".toList ∨
    parameter.1 = "offset".toList
  columns : ∀ parameter ∈ query, parameter.1 = "columns".toList →
    ∃ names, names ≠ [] ∧ parameter.2 = join [','] names ∧ ∀ name ∈ names, ListedColumn name
  numbers : ∀ parameter ∈ query, parameter.1 = "limit".toList ∨ parameter.1 = "offset".toList →
    ∃ n, n < 2 ^ 64 ∧ parameter.2 = Nat.toDigits 10 n

/-! ### The parameters -/

theorem lastValue_mem (key value : Str) (query : List (Str × Str))
    (h : lastValue key query = some value) : (key, value) ∈ query := by
  rw [lastValue, List.lookup_eq_some_iff] at h
  obtain ⟨before, after, heq, _⟩ := h
  rw [← List.mem_reverse, heq]
  simp

theorem splitOn_join (names : List Str) (hne : names ≠ []) (h : ∀ name ∈ names, ListedColumn name) :
    (join [','] names).splitOn ',' = names :=
  List.splitOn_intercalate ',' (fun name hname => (h name hname).2.1) hne

theorem splitColumns_join (names : List Str) (hne : names ≠ [])
    (h : ∀ name ∈ names, ListedColumn name) : splitColumns (join [','] names) = names := by
  rw [splitColumns, splitOn_join names hne h]
  clear hne
  induction names with
  | nil => rfl
  | cons name names ih =>
    obtain ⟨hvalid, _, htrim⟩ := h name (by simp)
    rw [List.filterMap_cons, htrim, if_neg (by simpa using hvalid.1),
      ih fun other hother => h other (by simp [hother])]

/- Decimal digits are read as they stand, without a sign. -/
theorem toDigits_unsigned (n : Nat) : (Nat.toDigits 10 n).head? ≠ some '+' ∧
    ¬ (Nat.toDigits 10 n = [] ∨ (Nat.toDigits 10 n).all Char.isDigit = false) := by
  have hdigit : ∀ c ∈ Nat.toDigits 10 n, c.isDigit = true := fun c hc =>
    Nat.isDigit_of_mem_toDigits (by decide) (by decide) hc
  have hall : (Nat.toDigits 10 n).all Char.isDigit = true := List.all_eq_true.mpr hdigit
  refine ⟨fun hhead => ?_, by simp [Nat.toDigits_ne_nil, hall]⟩
  exact absurd (hdigit '+' (List.mem_of_head? hhead)) (by decide)

theorem parseU64_digits (n : Nat) (h : n < 2 ^ 64) :
    parseU64 (Nat.toDigits 10 n) = some (UInt64.ofNat n) := by
  obtain ⟨hplus, hdigits⟩ := toDigits_unsigned n
  rw [parseU64, if_neg hplus]
  dsimp only
  rw [if_neg hdigits, Nat.ofDigitChars_ten_toDigits, if_pos h]

theorem isDigitText_digits (digitAbove : Char → Bool) (n : Nat) :
    Python.isDigitText digitAbove (Nat.toDigits 10 n) = true := by
  rw [Python.isDigitText, Bool.and_eq_true, List.all_eq_true]
  refine ⟨by simp [Nat.toDigits_ne_nil], fun c hc => ?_⟩
  have hdigit : c.isDigit = true := Nat.isDigit_of_mem_toDigits (by decide) (by decide) hc
  have hword : isWordChar c = true := isWordChar_of_mem_digits n c hc
  rw [if_pos (by have := toNat_lt_of_isWordChar c hword; omega), hdigit]

/- The keys that `select_options_from_query` knows. -/
theorem keys_of_foldlM_ok (sqlparser : SqlParser) (dialect : Dialect) (query : List (Str × Str))
    (options result : SelectOptions)
    (h : query.foldlM (selectOption sqlparser dialect) options = .ok result) :
    ∀ parameter ∈ query, parameter.1 ≠ "offset".toList := by
  induction query generalizing options with
  | nil => simp
  | cons parameter query ih =>
    obtain ⟨key, value⟩ := parameter
    obtain ⟨next, hnext, hrest⟩ := bind_eq_ok_iff.mp h
    rw [List.forall_mem_cons]
    refine ⟨?_, ih next hrest⟩
    intro heq
    subst heq
    simp [selectOption] at hnext

theorem exists_foldlM_ok (sqlparser : SqlParser) (dialect : Dialect) (query : List (Str × Str))
    (options : SelectOptions) (h : ∀ parameter ∈ query, parameter.1 = "columns".toList ∨
      parameter.1 = "limit".toList ∧ (parseU64 parameter.2).isSome) :
    ∃ result, query.foldlM (selectOption sqlparser dialect) options = .ok result := by
  induction query generalizing options with
  | nil => exact ⟨options, rfl⟩
  | cons parameter query ih =>
    obtain ⟨key, value⟩ := parameter
    rw [List.forall_mem_cons] at h
    have hnext : ∃ next, selectOption sqlparser dialect options (key, value) = .ok next := by
      rcases h.1 with hkey | ⟨hkey, hlimit⟩
      · exact ⟨_, if_pos hkey⟩
      · obtain ⟨limit, hvalue⟩ := Option.isSome_iff_exists.mp hlimit
        obtain rfl : key = "limit".toList := hkey
        rw [selectOption, if_neg (by decide), if_pos rfl,
          show parseU64 value = some limit from hvalue]
        exact ⟨_, rfl⟩
    obtain ⟨next, hnext⟩ := hnext
    obtain ⟨result, hresult⟩ := ih next h.2
    exact ⟨result, bind_eq_ok_iff.mpr ⟨next, hnext, hresult⟩⟩

/-! ### The two texts -/

theorem quoteIdentifier_python (dialect : Dialect) (name : Str) (h : ValidIdentifier name) :
    quoteIdentifier dialect name = .ok (Python.quote dialect.asStr name) := by
  rw [quoteIdentifier, if_neg (not_or.mpr h)]
  cases dialect <;> rfl

theorem qualifiedName_python (dialect : Dialect) (schema relation : Str)
    (hschema : ValidIdentifier schema) (hrelation : ValidIdentifier relation) :
    qualifiedName dialect schema relation =
      .ok (Python.quote dialect.asStr schema ++ '.' :: Python.quote dialect.asStr relation) := by
  rw [qualifiedName, quoteIdentifier_python dialect schema hschema,
    quoteIdentifier_python dialect relation hrelation]
  rfl

theorem selectedColumns_python (dialect : Dialect) (names : List Str) (hne : names ≠ [])
    (h : ∀ name ∈ names, ValidIdentifier name) :
    selectedColumns dialect names =
      .ok (join ", ".toList (names.map (Python.quote dialect.asStr))) := by
  have hquoted : names.mapM (quoteIdentifier dialect) =
      .ok (names.map (Python.quote dialect.asStr)) := by
    refine mapM_eq_ok_iff.mpr (List.forall₂_map_right_iff.mpr (List.forall₂_same.mpr ?_))
    exact fun name hname => quoteIdentifier_python dialect name (h name hname)
  rw [selectedColumns, if_neg hne, hquoted]
  rfl

section
variable (digitAbove : Char → Bool) (dialect : Dialect) (query : List (Str × Str))
  (hquery : ShapingQuery query)
include hquery

/-- What both make of `columns`. -/
theorem columns_agree : selectedColumns dialect (requestedColumns query) =
    .ok ((Python.truthy query "columns".toList).elim ['*'] fun columns =>
      join ", ".toList ((columns.splitOn ',').map (Python.quote dialect.asStr))) := by
  rw [requestedColumns, Python.truthy]
  cases hvalue : lastValue "columns".toList query with
  | none => rfl
  | some value =>
    obtain ⟨names, hne, hjoin, hnames⟩ := hquery.columns _ (lastValue_mem _ _ _ hvalue) rfl
    obtain rfl : value = join [','] names := hjoin
    have hnonempty : join [','] names ≠ [] := by
      intro hempty
      have hsplit := splitOn_join names hne hnames
      rw [hempty, List.splitOn_nil] at hsplit
      exact (hnames [] (by rw [← hsplit]; simp)).1.1 rfl
    rw [Option.filter_some_pos (by simpa using hnonempty), Option.elim_some, Option.elim_some,
      splitColumns_join names hne hnames, splitOn_join names hne hnames]
    exact selectedColumns_python dialect names hne fun name hname => (hnames name hname).1

/-- What both make of `limit`. -/
theorem limit_agrees : Python.numberText digitAbove "LIMIT".toList "limit".toList query =
    .ok (limitText (requestedLimit query)) := by
  rw [requestedLimit, Python.numberText, Python.truthy]
  cases hvalue : lastValue "limit".toList query with
  | none => rfl
  | some value =>
    obtain ⟨n, hn, hdigits⟩ := hquery.numbers _ (lastValue_mem _ _ _ hvalue) (.inl rfl)
    obtain rfl : value = Nat.toDigits 10 n := hdigits
    rw [Option.filter_some_pos (by simp [Nat.toDigits_ne_nil]), Option.bind_some,
      parseU64_digits n hn]
    dsimp only
    rw [if_pos (isDigitText_digits digitAbove n), limitText, Option.elim_some,
      UInt64.toNat_ofNat_of_lt' hn]
    rfl

omit hquery in
theorem offset_absent (h : ∀ parameter ∈ query, parameter.1 ≠ "offset".toList) :
    Python.numberText digitAbove "OFFSET".toList "offset".toList query = .ok [] := by
  have hnone : lastValue "offset".toList query = none := by
    cases hvalue : lastValue "offset".toList query with
    | none => rfl
    | some value => exact absurd rfl (h _ (lastValue_mem _ _ _ hvalue))
  rw [Python.numberText, Python.truthy, hnone]
  rfl

theorem exists_options (sqlparser : SqlParser)
    (h : ∀ parameter ∈ query, parameter.1 ≠ "offset".toList) :
    selectOptionsFromQuery sqlparser dialect query =
      .ok ⟨requestedColumns query, requestedLimit query, none⟩ := by
  have hkeys : ∀ parameter ∈ query, parameter.1 ≠ "where".toList := by
    intro parameter hparameter hkey
    rcases hquery.keys parameter hparameter with hkey' | hkey' | hkey' <;>
      exact absurd (hkey.symm.trans hkey') (by decide)
  obtain ⟨options, hoptions⟩ := exists_foldlM_ok sqlparser dialect query ⟨[], none, none⟩ (by
    intro parameter hparameter
    rcases hquery.keys parameter hparameter with hkey | hkey | hkey
    · exact .inl hkey
    · obtain ⟨n, hn, hdigits⟩ := hquery.numbers parameter hparameter (.inl hkey)
      refine .inr ⟨hkey, ?_⟩
      rw [hdigits, parseU64_digits n hn]
      rfl
    · exact absurd hkey (h parameter hparameter))
  rw [← selectOptionsFromQuery_requested sqlparser dialect query options hkeys hoptions]
  exact hoptions

end

/-- Over the documented parameters both read paths send the same statement exactly when
there is no `offset`. -/
theorem read_shaping_agrees_iff (sqlparser : SqlParser) (digitAbove : Char → Bool)
    (dialect : Dialect) (schema relation : Str) (format : Option Str) (query : List (Str × Str))
    (hschema : ValidIdentifier schema) (hrelation : ValidIdentifier relation)
    (hquery : ShapingQuery query) :
    (∃ text, readSql sqlparser dialect schema relation query = .ok text ∧
      Python.selectSql digitAbove dialect.asStr
        ⟨some schema, some relation, .data, none, format, query⟩ = .ok text) ↔
    ∀ parameter ∈ query, parameter.1 ≠ "offset".toList := by
  constructor
  · intro h
    obtain ⟨text, hnative, _⟩ := h
    obtain ⟨options, hoptions, _⟩ := bind_eq_ok_iff.mp hnative
    exact keys_of_foldlM_ok sqlparser dialect query _ options hoptions
  · intro hoffset
    have hwhere : Python.truthy query "where".toList = none := by
      rw [Python.truthy]
      cases hvalue : lastValue "where".toList query with
      | none => rfl
      | some value =>
        rcases hquery.keys _ (lastValue_mem _ _ _ hvalue) with hkey | hkey | hkey
        · exact absurd (show "where".toList = "columns".toList from hkey) (by decide)
        · exact absurd (show "where".toList = "limit".toList from hkey) (by decide)
        · exact absurd (show "where".toList = "offset".toList from hkey) (by decide)
    have hnative : readSql sqlparser dialect schema relation query =
        selectSql dialect schema relation ⟨requestedColumns query, requestedLimit query, none⟩ := by
      rw [readSql, exists_options dialect query hquery sqlparser hoffset]
      rfl
    rw [hnative, selectSql, columns_agree dialect query hquery,
      qualifiedName_python dialect schema relation hschema hrelation, Python.selectSql]
    dsimp only
    rw [hwhere, limit_agrees digitAbove query hquery, offset_absent digitAbove query hoffset]
    refine ⟨_, rfl, ?_⟩
    simp [bind, Except.bind, whereText]

theorem shapingQuery_columns_limit :
    ShapingQuery [("limit".toList, "10".toList), ("columns".toList, "id,na`me".toList)] where
  keys := by decide
  columns := by
    intro parameter hparameter hkey
    rcases List.mem_pair.mp hparameter with rfl | rfl
    · exact absurd hkey (by decide)
    · exact ⟨["id".toList, "na`me".toList], by decide, by decide, by
        simp only [List.forall_mem_cons]
        exact ⟨⟨by decide, by decide, by decide⟩, ⟨by decide, by decide, by decide⟩, by simp⟩⟩
  numbers := by
    intro parameter hparameter hkey
    rcases List.mem_pair.mp hparameter with rfl | rfl
    · exact ⟨10, by decide, by decide⟩
    · exact absurd hkey (by decide)

theorem columns_and_limit_agree :
    ∃ text, readSql (comparisonParser false) .MySql "main".toList "users".toList
        [("limit".toList, "10".toList), ("columns".toList, "id,na`me".toList)] = .ok text ∧
      Python.selectSql (fun _ => false) "mysql".toList ⟨some "main".toList, some "users".toList,
        .data, none, some "arrow".toList,
        [("limit".toList, "10".toList), ("columns".toList, "id,na`me".toList)]⟩ = .ok text :=
  (read_shaping_agrees_iff (comparisonParser false) (fun _ => false) .MySql "main".toList
    "users".toList (some "arrow".toList) _ (by decide) (by decide) shapingQuery_columns_limit).mpr
    (by decide)

/-- The documented `limit=20&offset=20` is a page for one and an error for the other. -/
theorem offset_is_refused :
    readSql (comparisonParser false) .Sqlite "main".toList "users".toList
        [("limit".toList, "20".toList), ("offset".toList, "20".toList)] =
      .error (.InvalidArgument "unknown query parameter: offset".toList) ∧
    Python.selectSql (fun _ => false) "sqlite".toList ⟨some "main".toList, some "users".toList,
        .data, none, some "arrow".toList,
        [("limit".toList, "20".toList), ("offset".toList, "20".toList)]⟩ =
      .ok "SELECT * FROM \"main\".\"users\" LIMIT 20 OFFSET 20".toList :=
  ⟨by decide, by decide⟩

end FsspecDb.Sql
