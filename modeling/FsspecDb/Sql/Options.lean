import FsspecDb.Lib.Checked
import FsspecDb.Sql.Predicate

/-!
# Query parameters of a read (fs.rs)

`select_options_from_query` reads the parameters one after the other; a later one
replaces an earlier one of the same name.
-/

namespace FsspecDb.Sql
open Text Checked

/-- `str::parse::<u64>`: decimal digits, after a plus sign or none. -/
def parseU64 (value : Str) : Option UInt64 :=
  let digits := if value.head? = some '+' then value.tail else value
  if digits = [] ∨ digits.all Char.isDigit = false then none
  else
    let n := Nat.ofDigitChars 10 digits 0
    if n < 2 ^ 64 then some (UInt64.ofNat n) else none

/-- The columns that the value of `columns` names. -/
def splitColumns (value : Str) : List Str :=
  (value.splitOn ',').filterMap fun column =>
    if (trim column).isEmpty then none else some (trim column)

/-- The body of the loop of `select_options_from_query`. -/
def selectOption (sqlparser : SqlParser) (dialect : Dialect) (options : SelectOptions)
    (parameter : Str × Str) : Except DbError SelectOptions :=
  let (key, value) := parameter
  if key = "columns".toList then .ok { options with columns := splitColumns value }
  else if key = "limit".toList then
    match parseU64 value with
    | some limit => .ok { options with limit := some limit }
    | none => .error (.InvalidArgument ("invalid limit query parameter: ".toList ++ value))
  else if key = "where".toList then do
    let predicate ← validatePredicate sqlparser dialect value
    .ok { options with whereClause := some predicate }
  else .error (.InvalidArgument ("unknown query parameter: ".toList ++ key))

def selectOptionsFromQuery (sqlparser : SqlParser) (dialect : Dialect)
    (query : List (Str × Str)) : Except DbError SelectOptions :=
  query.foldlM (selectOption sqlparser dialect) ⟨[], none, none⟩

/-! ### What a query asks for -/

/-- The last value given for a key. -/
def lastValue (key : Str) (query : List (Str × Str)) : Option Str := query.reverse.lookup key

def requestedColumns (query : List (Str × Str)) : List Str :=
  (lastValue "columns".toList query).elim [] splitColumns

def requestedLimit (query : List (Str × Str)) : Option UInt64 :=
  (lastValue "limit".toList query).bind parseU64

theorem lastValue_cons (key key' value : Str) (query : List (Str × Str)) :
    lastValue key ((key', value) :: query) =
      (lastValue key query).or (if key = key' then some value else none) := by
  rw [lastValue, List.reverse_cons, List.lookup_append, ← lastValue, List.lookup_cons]
  by_cases hkey : key = key'
  · rw [if_pos hkey, hkey, beq_self_eq_true]
  · have hbeq : (key == key') = false := by simpa using hkey
    rw [if_neg hkey, hbeq]
    rfl

/- Each parameter sets its own option. -/
theorem selectOption_ok (sqlparser : SqlParser) (dialect : Dialect) (options next : SelectOptions)
    (key value : Str) (h : selectOption sqlparser dialect options (key, value) = .ok next) :
    next.columns = (if key = "columns".toList then splitColumns value else options.columns) ∧
      next.limit = (if key = "limit".toList then parseU64 value else options.limit) ∧
      (key ≠ "where".toList → next.whereClause = options.whereClause) := by
  unfold selectOption at h
  dsimp only at h
  split_ifs at h with hcolumns hlimit hwhere
  · rw [← Except.ok.inj h, hcolumns]
    exact ⟨rfl, rfl, fun _ => rfl⟩
  · cases hparse : parseU64 value with
    | none => simp [hparse] at h
    | some limit =>
      rw [hparse] at h
      rw [← Except.ok.inj h, hlimit]
      exact ⟨rfl, rfl, fun _ => rfl⟩
  · obtain ⟨predicate, _, h⟩ := bind_eq_ok_iff.mp h
    rw [← Except.ok.inj h, hwhere]
    exact ⟨rfl, rfl, fun hne => absurd rfl hne⟩

theorem foldlM_selectOption_ok (sqlparser : SqlParser) (dialect : Dialect)
    (query : List (Str × Str)) (options result : SelectOptions)
    (h : query.foldlM (selectOption sqlparser dialect) options = .ok result) :
    result.columns = (lastValue "columns".toList query).elim options.columns splitColumns ∧
      result.limit = (lastValue "limit".toList query).elim options.limit parseU64 ∧
      ((∀ parameter ∈ query, parameter.1 ≠ "where".toList) →
        result.whereClause = options.whereClause) := by
  induction query generalizing options with
  | nil =>
    rw [← Except.ok.inj h]
    exact ⟨rfl, rfl, fun _ => rfl⟩
  | cons parameter query ih =>
    obtain ⟨key, value⟩ := parameter
    obtain ⟨next, hnext, hrest⟩ := bind_eq_ok_iff.mp h
    obtain ⟨hcolumns, hlimit, hwhere⟩ :=
      selectOption_ok sqlparser dialect options next key value hnext
    obtain ⟨ihcolumns, ihlimit, ihwhere⟩ := ih next hrest
    refine ⟨?_, ?_, fun hkeys => ?_⟩
    · rw [ihcolumns, hcolumns, lastValue_cons]
      cases lastValue "columns".toList query with
      | some value' => rfl
      | none =>
        rw [Option.none_or]
        by_cases hkey : key = "columns".toList
        · rw [if_pos hkey, if_pos hkey.symm]
          rfl
        · rw [if_neg hkey, if_neg (Ne.symm hkey)]
    · rw [ihlimit, hlimit, lastValue_cons]
      cases lastValue "limit".toList query with
      | some value' => rfl
      | none =>
        rw [Option.none_or]
        by_cases hkey : key = "limit".toList
        · rw [if_pos hkey, if_pos hkey.symm]
          rfl
        · rw [if_neg hkey, if_neg (Ne.symm hkey)]
    · rw [List.forall_mem_cons] at hkeys
      rw [ihwhere hkeys.2, hwhere hkeys.1]

/-- The options are what the query asks for. -/
theorem selectOptionsFromQuery_requested (sqlparser : SqlParser) (dialect : Dialect)
    (query : List (Str × Str)) (options : SelectOptions)
    (hkeys : ∀ parameter ∈ query, parameter.1 ≠ "where".toList)
    (h : selectOptionsFromQuery sqlparser dialect query = .ok options) :
    options = ⟨requestedColumns query, requestedLimit query, none⟩ := by
  obtain ⟨hcolumns, hlimit, hwhere⟩ := foldlM_selectOption_ok sqlparser dialect query _ options h
  obtain ⟨columns, limit, whereClause⟩ := options
  have hrequested : limit = requestedLimit query := by
    rw [show limit = _ from hlimit, requestedLimit]
    cases lastValue "limit".toList query <;> rfl
  rw [show columns = _ from hcolumns, show whereClause = _ from hwhere hkeys, hrequested]
  rfl

end FsspecDb.Sql
