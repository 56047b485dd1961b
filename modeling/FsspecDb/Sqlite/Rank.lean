import FsspecDb.Sqlite.Rows

/-!
# Type names by width

`rank` orders the SQLite type names the way `ColumnValues::new` tests them. The
type of a column is that of the widest name, and a value no wider than its
column always decodes.
-/

namespace FsspecDb.Sqlite
open Text

/-- The order in which `ColumnValues::new` tests a type name. -/
def rank (name : Str) : Nat :=
  let name := toAsciiLowercase name
  if isText name then 5
  else if isBlob name then 4
  else if isReal name then 3
  else if isBool name then 2
  else if isInt name then 1
  else 0

def rankType : Nat → DataType
  | 1 => .Int64
  | 2 => .Boolean
  | 3 => .Float64
  | 4 => .Binary
  | _ => .Utf8

/-- The rank of a stored value: its runtime type, and nothing for `NULL`. -/
def valueRank : SqliteValue → Nat
  | .null => 0
  | .integer _ => 1
  | .real _ => 3
  | .text _ => 5
  | .blob _ => 4

def widest (names : List Str) : Nat := (names.map rank).foldr max 0

theorem rank_typeName (v : SqliteValue) (h : v.isNull = false) :
    rank v.typeName = valueRank v := by
  cases v with
  | null => simp only [SqliteValue.isNull, Bool.true_eq_false] at h
  | integer _ => exact (by decide : rank "INTEGER".toList = 1)
  | real _ => exact (by decide : rank "REAL".toList = 3)
  | text _ => exact (by decide : rank "TEXT".toList = 5)
  | blob _ => exact (by decide : rank "BLOB".toList = 4)

theorem rank_le (name : Str) : rank name ≤ 5 := by
  unfold rank
  dsimp only
  split_ifs <;> omega

theorem widest_le (names : List Str) : widest names ≤ 5 := by
  induction names with
  | nil => exact Nat.zero_le 5
  | cons name rest ih => exact Nat.max_le.mpr ⟨rank_le name, ih⟩

/- The runtime type name of a value, as the loop over the rows collects it. -/
def pushName (names : List Str) (raw : SqliteValue) : List Str :=
  if raw.isNull then names else names ++ [raw.typeName]

theorem widest_append (names : List Str) (name : Str) :
    widest (names ++ [name]) = max (widest names) (rank name) := by
  induction names with
  | nil => simp only [widest, List.nil_append, List.map_cons, List.map_nil, List.foldr_cons,
      List.foldr_nil, Nat.max_zero, Nat.zero_max]
  | cons first rest ih =>
    simp only [widest, List.cons_append, List.map_cons, List.foldr_cons] at ih ⊢
    rw [ih, Nat.max_assoc]

theorem widest_pushName (names : List Str) (raw : SqliteValue) :
    widest (pushName names raw) = max (widest names) (valueRank raw) := by
  unfold pushName
  cases h : raw.isNull with
  | true =>
    have hnull : raw = .null := by cases raw <;> simp_all [SqliteValue.isNull]
    simp only [hnull, if_true, valueRank, Nat.max_zero]
  | false =>
    rw [if_neg Bool.false_ne_true, widest_append, rank_typeName raw h]

theorem le_widest_iff (names : List Str) (r : Nat) (hr : 0 < r) :
    r ≤ widest names ↔ ∃ name ∈ names, r ≤ rank name := by
  induction names with
  | nil =>
    simp only [widest, List.map_nil, List.foldr_nil, List.not_mem_nil, false_and, exists_false,
      iff_false, Nat.not_le, hr]
  | cons name rest ih =>
    have hcons : r ≤ widest (name :: rest) ↔ r ≤ rank name ∨ r ≤ widest rest := by
      rw [show widest (name :: rest) = max (rank name) (widest rest) from rfl]
      omega
    rw [hcons, ih]
    simp only [List.mem_cons, exists_eq_or_imp]

theorem new_length (names : List Str) : (ColumnValues.new names).length = 0 := by
  unfold ColumnValues.new
  dsimp only
  split_ifs <;> rfl

/- Which tests a name of at least a given rank passes. -/
theorem le_rank_iff (name : Str) :
    let name' := toAsciiLowercase name
    (5 ≤ rank name ↔ isText name' = true) ∧
    (4 ≤ rank name ↔ isText name' = true ∨ isBlob name' = true) ∧
    (3 ≤ rank name ↔ isText name' = true ∨ isBlob name' = true ∨ isReal name' = true) ∧
    (2 ≤ rank name ↔ isText name' = true ∨ isBlob name' = true ∨ isReal name' = true ∨
      isBool name' = true) ∧
    (1 ≤ rank name ↔ isText name' = true ∨ isBlob name' = true ∨ isReal name' = true ∨
      isBool name' = true ∨ isInt name' = true) := by
  unfold rank
  dsimp only
  split_ifs <;> simp [*]

/- The same for the widest of several names. -/
theorem le_widest_tests (names : List Str) :
    let any (test : Str → Bool) := (names.map toAsciiLowercase).any test = true
    (5 ≤ widest names ↔ any isText) ∧
    (4 ≤ widest names ↔ any isText ∨ any isBlob) ∧
    (3 ≤ widest names ↔ any isText ∨ any isBlob ∨ any isReal) ∧
    (2 ≤ widest names ↔ any isText ∨ any isBlob ∨ any isReal ∨ any isBool) ∧
    (1 ≤ widest names ↔ any isText ∨ any isBlob ∨ any isReal ∨ any isBool ∨ any isInt) := by
  have hrank (name : Str) := le_rank_iff name
  dsimp only at hrank ⊢
  simp only [List.any_map, List.any_eq_true, Function.comp_apply]
  refine ⟨?_, ?_, ?_, ?_, ?_⟩
  · rw [le_widest_iff names 5 (by decide)]
    simp only [(hrank _).1]
  · rw [le_widest_iff names 4 (by decide)]
    simp only [(hrank _).2.1, and_or_left, exists_or]
  · rw [le_widest_iff names 3 (by decide)]
    simp only [(hrank _).2.2.1, and_or_left, exists_or]
  · rw [le_widest_iff names 2 (by decide)]
    simp only [(hrank _).2.2.2.1, and_or_left, exists_or]
  · rw [le_widest_iff names 1 (by decide)]
    simp only [(hrank _).2.2.2.2, and_or_left, exists_or]

/-- `ColumnValues::new` takes the type of the widest name. -/
theorem new_dataType (names : List Str) :
    (ColumnValues.new names).dataType = rankType (widest names) := by
  have htests := le_widest_tests names
  dsimp only at htests
  obtain ⟨h5, h4, h3, h2, h1⟩ := htests
  have hle := widest_le names
  unfold ColumnValues.new
  dsimp only
  split_ifs with htext hblob hreal hbool hint
  · have hge := h5.mpr htext
    rw [show widest names = 5 by omega]
    rfl
  · simp only [htext, hblob, Bool.false_eq_true, or_true, iff_true, iff_false] at h5 h4
    rw [show widest names = 4 by omega]
    rfl
  · simp only [htext, hblob, hreal, Bool.false_eq_true, or_true, or_false, iff_true,
      iff_false] at h4 h3
    rw [show widest names = 3 by omega]
    rfl
  · simp only [htext, hblob, hreal, hbool, Bool.false_eq_true, or_true, or_false, iff_true,
      iff_false] at h3 h2
    rw [show widest names = 2 by omega]
    rfl
  · simp only [htext, hblob, hreal, hbool, hint, Bool.false_eq_true, or_true, or_false, iff_true,
      iff_false] at h2 h1
    rw [show widest names = 1 by omega]
    rfl
  · simp only [htext, hblob, hreal, hbool, hint, Bool.false_eq_true, or_false, iff_false] at h1
    rw [show widest names = 0 by omega]
    rfl

/-! ### Every value of a chunk decodes -/

/- What the tests answer on the four runtime type names. -/
theorem integer_tests (value : Int64) :
    let name := toAsciiLowercase (SqliteValue.integer value).typeName
    isText name = false ∧ isBlob name = false ∧ isReal name = false ∧ isBool name = false ∧
      isInt name = true :=
  ⟨(by decide : isText (toAsciiLowercase "INTEGER".toList) = false),
    (by decide : isBlob (toAsciiLowercase "INTEGER".toList) = false),
    (by decide : isReal (toAsciiLowercase "INTEGER".toList) = false),
    (by decide : isBool (toAsciiLowercase "INTEGER".toList) = false),
    (by decide : isInt (toAsciiLowercase "INTEGER".toList) = true)⟩

theorem real_tests (bits : UInt64) :
    let name := toAsciiLowercase (SqliteValue.real bits).typeName
    isText name = false ∧ isBlob name = false ∧ isReal name = true :=
  ⟨(by decide : isText (toAsciiLowercase "REAL".toList) = false),
    (by decide : isBlob (toAsciiLowercase "REAL".toList) = false),
    (by decide : isReal (toAsciiLowercase "REAL".toList) = true)⟩

theorem text_tests (value : Str) :
    let name := toAsciiLowercase (SqliteValue.text value).typeName
    isText name = true ∧ isBlob name = false :=
  ⟨(by decide : isText (toAsciiLowercase "TEXT".toList) = true),
    (by decide : isBlob (toAsciiLowercase "TEXT".toList) = false)⟩

theorem blob_tests (value : List Byte) :
    let name := toAsciiLowercase (SqliteValue.blob value).typeName
    isText name = false ∧ isBlob name = true :=
  ⟨(by decide : isText (toAsciiLowercase "BLOB".toList) = false),
    (by decide : isBlob (toAsciiLowercase "BLOB".toList) = true)⟩

theorem decodeSqliteUtf8_ok (floats : FloatText) (raw : SqliteValue) (h : raw.isNull = false) :
    ∃ text, decodeSqliteUtf8 floats raw (toAsciiLowercase raw.typeName) = .ok text := by
  cases raw with
  | null => simp only [SqliteValue.isNull, Bool.true_eq_false] at h
  | integer value =>
    obtain ⟨h5, h4, h3, h2, h1⟩ := integer_tests value
    simp [decodeSqliteUtf8, h5, h4, h3, h2, h1, tryGetI64, Except.map]
  | real bits =>
    obtain ⟨h5, h4, h3⟩ := real_tests bits
    simp [decodeSqliteUtf8, h5, h4, h3, tryGetF64, Except.map]
  | text value =>
    obtain ⟨h5, _⟩ := text_tests value
    simp [decodeSqliteUtf8, h5, tryGetString]
  | blob value =>
    obtain ⟨h5, h4⟩ := blob_tests value
    simp [decodeSqliteUtf8, h5, h4, tryGetBytes, Except.map]

theorem decodeSqliteBinary_ok (floats : FloatText) (raw : SqliteValue) (h : raw.isNull = false) :
    ∃ bytes, decodeSqliteBinary floats raw (toAsciiLowercase raw.typeName) = .ok bytes := by
  unfold decodeSqliteBinary
  split
  · next hblob =>
    cases raw with
    | null => simp only [SqliteValue.isNull, Bool.true_eq_false] at h
    | integer value =>
      obtain ⟨_, h4, _⟩ := integer_tests value
      simp [h4] at hblob
    | real bits =>
      obtain ⟨_, h4, _⟩ := real_tests bits
      simp [h4] at hblob
    | text value =>
      obtain ⟨_, h4⟩ := text_tests value
      simp [h4] at hblob
    | blob value => exact ⟨value, rfl⟩
  · obtain ⟨text, htext⟩ := decodeSqliteUtf8_ok floats raw h
    exact ⟨Utf8.encode text, by rw [htext]; rfl⟩

theorem decodeSqliteF64_ok (raw : SqliteValue) (h : raw.isNull = false) (hle : valueRank raw ≤ 3) :
    ∃ bits, decodeSqliteF64 raw (toAsciiLowercase raw.typeName) = .ok bits := by
  cases raw with
  | null => simp only [SqliteValue.isNull, Bool.true_eq_false] at h
  | integer value =>
    obtain ⟨_, _, h3, h2, h1⟩ := integer_tests value
    simp [decodeSqliteF64, h3, h2, h1, tryGetI64, Except.map]
  | real bits =>
    obtain ⟨_, _, h3⟩ := real_tests bits
    simp [decodeSqliteF64, h3, tryGetF64]
  | text value => exact absurd hle (by decide : ¬ 5 ≤ 3)
  | blob value => exact absurd hle (by decide : ¬ 4 ≤ 3)

/- The two narrowest decoders take the same values, INTEGER and no other. -/
theorem decodeSqliteBool_ok (raw : SqliteValue) (h : raw.isNull = false)
    (hle : valueRank raw ≤ 2) :
    (∃ value, decodeSqliteBool raw (toAsciiLowercase raw.typeName) = .ok value) ∧
      ∃ value, decodeSqliteI64 raw (toAsciiLowercase raw.typeName) = .ok value := by
  cases raw with
  | null => simp only [SqliteValue.isNull, Bool.true_eq_false] at h
  | integer value =>
    obtain ⟨_, _, _, h2, h1⟩ := integer_tests value
    simp [decodeSqliteBool, decodeSqliteI64, h2, h1, tryGetI64, Except.map]
  | real bits => exact absurd hle (by decide : ¬ 3 ≤ 2)
  | text value => exact absurd hle (by decide : ¬ 5 ≤ 2)
  | blob value => exact absurd hle (by decide : ¬ 4 ≤ 2)

def typeRank : DataType → Nat
  | .Int64 => 1
  | .Boolean => 2
  | .Float64 => 3
  | .Binary => 4
  | _ => 5

theorem valueRank_le_typeRank (raw : SqliteValue) (r : Nat) (h : valueRank raw ≤ r) :
    valueRank raw ≤ typeRank (rankType r) := by
  match r with
  | 0 => exact Nat.le_trans h (Nat.zero_le 5)
  | 1 | 2 | 3 | 4 => exact h
  | r + 5 => cases raw <;> simp [valueRank, rankType, typeRank]

/-- A value no wider than its column is pushed, and the column keeps its type. -/
theorem push_ok (floats : FloatText) (column : ColumnValues) (raw : SqliteValue)
    (h : valueRank raw ≤ typeRank column.dataType) :
    ∃ next, column.push floats raw = .ok next ∧ next.dataType = column.dataType ∧
      next.length = column.length + 1 := by
  cases hnull : raw.isNull with
  | true =>
    refine ⟨column.pushNull, by simp only [ColumnValues.push, hnull, if_true], ?_, ?_⟩
    · cases column <;> rfl
    · cases column <;> simp [ColumnValues.pushNull, ColumnValues.length]
  | false =>
    cases column with
    | Utf8 values =>
      obtain ⟨text, htext⟩ := decodeSqliteUtf8_ok floats raw hnull
      refine ⟨.Utf8 (values ++ [some text]), ?_, rfl, by simp [ColumnValues.length]⟩
      simp [ColumnValues.push, hnull, htext, Except.map]
    | Binary values =>
      obtain ⟨bytes, hbytes⟩ := decodeSqliteBinary_ok floats raw hnull
      refine ⟨.Binary (values ++ [some bytes]), ?_, rfl, by simp [ColumnValues.length]⟩
      simp [ColumnValues.push, hnull, hbytes, Except.map]
    | Float64 values =>
      obtain ⟨bits, hbits⟩ := decodeSqliteF64_ok raw hnull h
      refine ⟨.Float64 (values ++ [some bits]), ?_, rfl, by simp [ColumnValues.length]⟩
      simp [ColumnValues.push, hnull, hbits, Except.map]
    | Bool values =>
      obtain ⟨value, hvalue⟩ := (decodeSqliteBool_ok raw hnull h).1
      refine ⟨.Bool (values ++ [some value]), ?_, rfl, by simp [ColumnValues.length]⟩
      simp [ColumnValues.push, hnull, hvalue, Except.map]
    | Int64 values =>
      obtain ⟨value, hvalue⟩ := (decodeSqliteBool_ok raw hnull (Nat.le_succ_of_le h)).2
      refine ⟨.Int64 (values ++ [some value]), ?_, rfl, by simp [ColumnValues.length]⟩
      simp [ColumnValues.push, hnull, hvalue, Except.map]

end FsspecDb.Sqlite
