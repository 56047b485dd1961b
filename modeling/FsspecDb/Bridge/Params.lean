import FsspecDb.Ddl.Paths
import FsspecDb.Float
import FsspecDb.Lib.Checked

/-!
# Query parameters on the bridge (database.rs of the Python module)

The parameters of `query` go from Python to `DbValue` and back to Python, where the `query`
method of the backend is called with them. The first way tries one extraction after the other.
-/

namespace FsspecDb.Bridge
open Checked Ddl

/-- What a Python string is made of, the surrogates among them. -/
abbrev CodePoint := Fin 0x110000

/-- The scalars that the bridge takes. -/
inductive PyScalar where
  | none
  | bool (value : Bool)
  | int (value : Int)
  | float (bits : UInt64)
  | str (value : List CodePoint)
  | bytes (value : List Byte)
  deriving Repr, DecidableEq

inductive DbValue where
  | Null
  | Bool (value : Bool)
  | Int64 (value : Int64)
  | Float64 (bits : UInt64)
  | String (value : Str)
  | Binary (value : List Byte)
  deriving Repr, DecidableEq

/-! ### The extractions of PyO3 -/

def InI64 (value : Int) : Prop := -2 ^ 63 ≤ value ∧ value < 2 ^ 63

instance (value : Int) : Decidable (InI64 value) := inferInstanceAs (Decidable (_ ∧ _))

/- A bool is an int, and an int is a float where it can be converted. -/
def extractI64 : PyScalar → Option Int64
  | .bool value => some (if value then 1 else 0)
  | .int value => if InI64 value then some (Int64.ofInt value) else none
  | _ => none

/-- `asDouble` is the conversion of an int, which fails beyond the largest double. -/
def extractF64 (asDouble : Int → Option UInt64) : PyScalar → Option UInt64
  | .bool value => asDouble (if value then 1 else 0)
  | .int value => asDouble value
  | .float bits => some bits
  | _ => none

def charOf (c : CodePoint) : Option Char :=
  if c.val.isValidChar then some (Char.ofNat c.val) else none

/- A string with a surrogate has no UTF-8. -/
def extractString : PyScalar → Option Str
  | .str value => value.mapM charOf
  | _ => none

def castBool : PyScalar → Option Bool
  | .bool value => some value
  | _ => none

def castBytes : PyScalar → Option (List Byte)
  | .bytes value => some value
  | _ => none

/-! ### The two ways -/

def unsupported : PyError := .ValueError "unsupported query parameter type".toList

section
variable (asDouble : Int → Option UInt64)

def pyValueToDbValue (value : PyScalar) : Except PyError DbValue :=
  if value = .none then .ok .Null
  else
    match castBool value with
    | some value => .ok (.Bool value)
    | none =>
      match extractI64 value with
      | some value => .ok (.Int64 value)
      | none =>
        match extractF64 asDouble value with
        | some bits => .ok (.Float64 bits)
        | none =>
          match extractString value with
          | some value => .ok (.String value)
          | none =>
            match castBytes value with
            | some value => .ok (.Binary value)
            | none => .error unsupported

def pyParamsToDbValues (params : List PyScalar) : Except PyError (List DbValue) :=
  params.mapM (pyValueToDbValue asDouble)

end

def codePoint (c : Char) : CodePoint :=
  ⟨c.toNat, by
    have hvalid := c.valid
    simp only [UInt32.isValidChar, Nat.isValidChar] at hvalid
    have hval : c.toNat = c.val.toNat := rfl
    omega⟩

def dbValueToPy : DbValue → PyScalar
  | .Null => .none
  | .Bool value => .bool value
  | .Int64 value => .int value.toInt
  | .Float64 bits => .float bits
  | .String value => .str (value.map codePoint)
  | .Binary value => .bytes value

def dbParamsToPy (params : List DbValue) : List PyScalar := params.map dbValueToPy

/-- What the `query` method of the backend is called with. -/
abbrev Call := Str × List PyScalar

def PyDatabase.query (sql : Str) (params : List DbValue) : Call := (sql, dbParamsToPy params)

section
variable (asDouble : Int → Option UInt64)

def queryArrow (sql : Str) (params : Option (List PyScalar)) : Except PyError Call := do
  let values ← match params with
    | some params => pyParamsToDbValues asDouble params
    | none => .ok []
  .ok (PyDatabase.query sql values)

/- Both decode what `query_arrow` returns, each in its own way. -/
def AbstractDatabaseFileSystem.query (sql : Str) (params : Option (List PyScalar)) :
    Except PyError Call :=
  queryArrow asDouble sql params

def AbstractDatabaseFileSystem.openQuery (sql : Str) (params : Option (List PyScalar)) :
    Except PyError Call :=
  queryArrow asDouble sql params

end

/-! ### Strings -/

theorem codePoint_charOf (p : CodePoint) (c : Char) (h : charOf p = some c) : codePoint c = p := by
  unfold charOf at h
  split at h
  · next hvalid =>
    rw [← Option.some.inj h]
    apply Fin.ext
    change (Char.ofNat p.val).toNat = p.val
    rw [Char.ofNat, dif_pos hvalid]
    rfl
  · cases h

theorem codePoints_extractString (points : List CodePoint) (value : Str)
    (h : extractString (.str points) = some value) : value.map codePoint = points := by
  rw [extractString, mapM_eq_some_iff] at h
  induction h with
  | nil => rfl
  | cons hhead _ ih => rw [List.map_cons, ih, codePoint_charOf _ _ hhead]

theorem extractString_eq_none_iff (points : List CodePoint) :
    extractString (.str points) = none ↔ ∃ p ∈ points, ¬ p.val.isValidChar := by
  rw [extractString]
  induction points with
  | nil => simp
  | cons p points ih =>
    rw [List.mapM_cons, List.exists_mem_cons_iff, ← ih]
    by_cases hvalid : p.val.isValidChar
    · have hchar : charOf p = some (Char.ofNat p.val) := if_pos hvalid
      rw [hchar]
      cases points.mapM charOf with
      | none => simp
      | some value => simp [hvalid]
    · have hchar : charOf p = none := if_neg hvalid
      rw [hchar]
      simp [hvalid]

/-! ### One value -/

/-- An int, if it is one, fits into 64 bits. -/
def FitsI64 : PyScalar → Prop
  | .int value => InI64 value
  | _ => True

section
variable {asDouble : Int → Option UInt64}

/-- No extraction takes the value: an int beyond the doubles or a string with a surrogate. -/
def Refused (asDouble : Int → Option UInt64) : PyScalar → Prop
  | .int value => ¬ InI64 value ∧ asDouble value = none
  | .str points => ∃ p ∈ points, ¬ p.val.isValidChar
  | _ => False

theorem pyValueToDbValue_int (value : Int) (hvalue : InI64 value) :
    pyValueToDbValue asDouble (.int value) = .ok (.Int64 (Int64.ofInt value)) := by
  simp [pyValueToDbValue, castBool, extractI64, hvalue]

theorem pyValueToDbValue_bigInt (value : Int) (hvalue : ¬ InI64 value) :
    pyValueToDbValue asDouble (.int value) =
      match asDouble value with
      | some bits => .ok (.Float64 bits)
      | none => .error unsupported := by
  simp only [pyValueToDbValue, castBool, extractI64, hvalue, extractF64, extractString, castBytes,
    reduceCtorEq, if_false]

theorem pyValueToDbValue_str (points : List CodePoint) :
    pyValueToDbValue asDouble (.str points) =
      match extractString (.str points) with
      | some value => .ok (.String value)
      | none => .error unsupported := by
  simp only [pyValueToDbValue, castBool, extractI64, extractF64, castBytes, reduceCtorEq, if_false]

/-- A value is refused, or it is taken and comes back if it is no int beyond 64 bits. -/
theorem pyValueToDbValue_cases (value : PyScalar) :
    Refused asDouble value ∧ pyValueToDbValue asDouble value = .error unsupported ∨
      ¬ Refused asDouble value ∧ ∃ db, pyValueToDbValue asDouble value = .ok db ∧
        (dbValueToPy db = value ↔ FitsI64 value) := by
  cases value with
  | none | bool | float | bytes => exact .inr ⟨id, _, rfl, iff_of_true rfl trivial⟩
  | int value =>
    rw [Refused, FitsI64]
    by_cases hvalue : InI64 value
    · have hback := congrArg PyScalar.int (Int64.toInt_ofInt_of_le hvalue.1 hvalue.2)
      exact .inr ⟨fun h => h.1 hvalue, _, pyValueToDbValue_int value hvalue,
        iff_of_true hback hvalue⟩
    · rw [pyValueToDbValue_bigInt value hvalue]
      cases asDouble value with
      | none => exact .inl ⟨⟨hvalue, rfl⟩, rfl⟩
      -- the float of an int is another value
      | some bits => exact .inr ⟨fun h => (by cases h.2), _, rfl, iff_of_false nofun hvalue⟩
  | str points =>
    rw [Refused, ← extractString_eq_none_iff, pyValueToDbValue_str]
    cases hvalue : extractString (.str points) with
    | none => exact .inl ⟨rfl, rfl⟩
    | some value =>
      have hback := congrArg PyScalar.str (codePoints_extractString points value hvalue)
      exact .inr ⟨nofun, _, rfl, iff_of_true hback trivial⟩

end

/-! ### A list of values -/

/-- If the backend is called then with the list that was passed. -/
def Unchanged (asDouble : Int → Option UInt64) (sql : Str) (params : List PyScalar) : Prop :=
  (∀ call, AbstractDatabaseFileSystem.query asDouble sql (some params) = .ok call →
    call = (sql, params)) ∧
  ∀ call, AbstractDatabaseFileSystem.openQuery asDouble sql (some params) = .ok call →
    call = (sql, params)

section
variable {asDouble : Int → Option UInt64}

theorem queryArrow_ok_iff (sql : Str) (params : List PyScalar) (call : Call) :
    queryArrow asDouble sql (some params) = .ok call ↔
      ∃ values, pyParamsToDbValues asDouble params = .ok values ∧
        (sql, dbParamsToPy values) = call := by
  rw [queryArrow, bind_eq_ok_iff]
  simp only [Except.ok.injEq, PyDatabase.query]

theorem dbParamsToPy_pyParamsToDbValues_iff (params : List PyScalar) (values : List DbValue)
    (h : pyParamsToDbValues asDouble params = .ok values) :
    dbParamsToPy values = params ↔ ∀ value ∈ params, FitsI64 value := by
  rw [pyParamsToDbValues, mapM_eq_ok_iff] at h
  induction h with
  | nil => exact iff_of_true rfl nofun
  | @cons value db params values hhead _ ih =>
    rw [dbParamsToPy, List.map_cons, List.cons.injEq, List.forall_mem_cons]
    rcases @pyValueToDbValue_cases asDouble value with ⟨_, herror⟩ | ⟨_, db', hok, hback⟩
    · rw [hhead] at herror
      cases herror
    · rw [hhead] at hok
      rw [Except.ok.inj hok, hback]
      exact and_congr_right fun _ => ih

theorem exists_pyParamsToDbValues_iff (params : List PyScalar) :
    (∃ values, pyParamsToDbValues asDouble params = .ok values) ↔
      ∀ value ∈ params, ¬ Refused asDouble value := by
  rw [pyParamsToDbValues, exists_mapM_eq_ok_iff]
  refine forall₂_congr fun value _ => ?_
  rcases pyValueToDbValue_cases value with ⟨hrefused, herror⟩ | ⟨htaken, db, hok, _⟩
  · rw [herror]
    exact iff_of_false nofun fun h => h hrefused
  · exact iff_of_true ⟨db, hok⟩ htaken

/-- The backend is called with the same list exactly if no int needs more than 64 bits or the
list is refused. -/
theorem queryParams_unchanged_iff (asDouble : Int → Option UInt64) (sql : Str)
    (params : List PyScalar) :
    Unchanged asDouble sql params ↔
      (∀ value ∈ params, FitsI64 value) ∨ ∃ value ∈ params, Refused asDouble value := by
  simp only [Unchanged, AbstractDatabaseFileSystem.query, AbstractDatabaseFileSystem.openQuery,
    and_self, queryArrow_ok_iff]
  constructor
  · intro hunchanged
    by_cases hrefused : ∃ value ∈ params, Refused asDouble value
    · exact .inr hrefused
    · push Not at hrefused
      obtain ⟨values, hvalues⟩ := (exists_pyParamsToDbValues_iff params).mpr hrefused
      have hsame := hunchanged _ ⟨values, hvalues, rfl⟩
      rw [Prod.mk.injEq] at hsame
      exact .inl ((dbParamsToPy_pyParamsToDbValues_iff params values hvalues).mp hsame.2)
  · intro hcase call hcall
    obtain ⟨values, hvalues, rfl⟩ := hcall
    rcases hcase with hfits | hrefused
    · rw [(dbParamsToPy_pyParamsToDbValues_iff params values hvalues).mpr hfits]
    · obtain ⟨value, hmem, hvalue⟩ := hrefused
      exact absurd hvalue ((exists_pyParamsToDbValues_iff params).mp ⟨values, hvalues⟩ value hmem)

end

/-! ### An int beyond 64 bits -/

/-- `PyFloat_AsDouble` of an int: to nearest, ties to even, and nothing beyond the largest. -/
def floatOfInt (value : Int) : Option UInt64 :=
  let magnitude := value.natAbs
  let negative := decide (value < 0)
  let k := Nat.log2 magnitude
  if magnitude = 0 then some 0
  else if k ≤ 52 then some (f64Bits negative (k + 1023) ((magnitude - 2 ^ k) * 2 ^ (52 - k)))
  else
    let unit := 2 ^ (k - 52)
    let quotient := magnitude / unit
    let rest := magnitude % unit
    let up := 2 * rest > unit ∨ (2 * rest = unit ∧ quotient % 2 = 1)
    let rounded := quotient + (if up then 1 else 0)
    if k < 1023 ∨ (k = 1023 ∧ rounded < 2 ^ 53) then
      some (f64Bits negative (k + 1023) (rounded - 2 ^ 52))
    else none

example : floatOfInt (2 ^ 53 + 1) = some 0x4340000000000000 := by decide +kernel
example : floatOfInt (2 ^ 1024) = none := by decide +kernel

/-- The database is asked for a float in the place of `2 ** 63`. -/
theorem bigInt_changed :
    ¬ ∀ (sql : Str) (params : List PyScalar), Unchanged floatOfInt sql params := by
  intro h
  have hcall := (h "SELECT ?".toList [.int (2 ^ 63)]).1
    ("SELECT ?".toList, [.float 0x43E0000000000000]) (by decide +kernel)
  exact absurd hcall (by decide +kernel)

end FsspecDb.Bridge
