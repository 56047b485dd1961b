import FsspecDb.Fs.Open

/-!
# Byte ranges (fs.rs, python.py)

`cat_file` reads the whole file and cuts it if a bound is negative, and seeks and
takes a limited read otherwise. Both give the slice of Python.
-/

namespace FsspecDb.Fs
open Encoded

variable {σ Stream Writer Schema Batch : Type}

/-! ### The source -/

/-- Addition of `i64`, which overflows outside its range. -/
def checkedAdd (a b : Int64) : Option Int64 :=
  if -2 ^ 63 ≤ a.toInt + b.toInt ∧ a.toInt + b.toInt < 2 ^ 63 then some (a + b) else none

/-- `value.max(0) as u64`. -/
def asUnsigned (value : Int64) : UInt64 := (max value 0).toUInt64

/- One bound of `slice_materialized`, where `len` is the length as `i64`. -/
def materializedBound (len default : Int64) : Option Int64 → Option Nat
  | some value =>
    if value < 0 then (checkedAdd len value).map fun sum => (asUnsigned sum).toNat
    else some (asUnsigned value).toNat
  | none => some default.toUInt64.toNat

/- Indexing with a range, which panics if the range is no range of the data. -/
def indexRange (data : List Byte) (start stop : Nat) : Option (List Byte) :=
  if start ≤ stop ∧ stop ≤ data.length then some ((data.take stop).drop start) else none

/-- `none` is a panic. -/
def sliceMaterialized (data : List Byte) (start stop : Option Int64) : Option (List Byte) := do
  let len := Int64.ofNat data.length
  let start ← materializedBound len 0 start
  let stop ← materializedBound len len stop
  if stop ≤ start then return []
  indexRange data (min start data.length) (min stop data.length)

def isNegative (bound : Option Int64) : Bool := bound.any fun value => decide (value < 0)

/-- `cat_file_db`. `none` is a panic, or a read loop that takes more than `fuel` calls. -/
def catFileDb (backend : Backend σ Stream Writer Schema Batch) (sizes : Nat → ℕ+) (fuel : Nat)
    (s : σ) (path : Str) (start stop : Option Int64) : Option (Except DbError (List Byte)) :=
  match openDb backend s path with
  | .error err => some (.error err)
  | .ok file =>
    if isNegative start || isNegative stop then
      match Reading.readToEnd (FsFile.read backend.codecs) sizes fuel 0 file with
      | none => none
      | some (.error err) => some (.error (.Io err))
      | some (.ok data) => (sliceMaterialized data start stop).map .ok
    else
      let start := asUnsigned (start.getD 0)
      let (sought, file) :=
        if 0 < start then file.seek backend.codecs (.Start start) else (.ok 0, file)
      match sought with
      | .error err => some (.error (.Io err))
      | .ok _ =>
        let read : Option (Except IoError (List Byte)) :=
          match stop with
          | some stop =>
            if asUnsigned stop ≤ start then some (.ok [])
            else Reading.readToEnd (Reading.limited (FsFile.read backend.codecs)) sizes fuel 0
              ((asUnsigned stop - start).toNat, file)
          | none => Reading.readToEnd (FsFile.read backend.codecs) sizes fuel 0 file
        read.map fun result => result.mapError .Io

/-! ### Python's slices -/

/- A bound of `data[start:stop]` as an index: counted from the end if negative, and
never outside the data. -/
def sliceIndex (len default : Nat) : Option Int → Nat
  | none => default
  | some i => if i < 0 then (len + i).toNat else min i.toNat len

def pySlice {α : Type} (data : List α) (start stop : Option Int) : List α :=
  (data.take (sliceIndex data.length data.length stop)).drop (sliceIndex data.length 0 start)

/-- `PyDatabaseFileSystem.cat_file`, over what `_read` gives. -/
def Python.catFile {ε : Type} (read : Str → Except ε (List Byte)) (path : Str)
    (start stop : Option Int) : Except ε (List Byte) :=
  (read path).map fun data => pySlice data start stop

/-! ### The bounds -/

theorem asUnsigned_toNat (value : Int64) : (asUnsigned value).toNat = value.toInt.toNat := by
  have hmax : max value 0 = if value ≤ 0 then 0 else value := rfl
  unfold asUnsigned
  rw [hmax]
  split
  · next hle =>
    have hint : value.toInt ≤ 0 := Int64.le_iff_toInt_le.mp hle
    have hzero : (Int64.toUInt64 0).toNat = 0 := rfl
    omega
  · next hle =>
    have hpos : 0 ≤ value := by
      rw [Int64.le_iff_toInt_le] at hle ⊢
      have hzero : (0 : Int64).toInt = 0 := rfl
      omega
    rw [Int64.toNat_toUInt64_of_le hpos]
    rfl

theorem lt_zero_iff (value : Int64) : value < 0 ↔ value.toInt < 0 := Int64.lt_iff_toInt_lt

/- Adding a negative bound to a length stays in the range. -/
theorem checkedAdd_len (n : Nat) (hn : n < 2 ^ 63) (value : Int64) (hneg : value.toInt < 0) :
    ∃ sum, checkedAdd (Int64.ofNat n) value = some sum ∧ sum.toInt = n + value.toInt := by
  have hlen : (Int64.ofNat n).toInt = n := Int64.toInt_ofNat_of_lt hn
  have hlow := value.le_toInt
  refine ⟨Int64.ofNat n + value, ?_, ?_⟩
  · unfold checkedAdd
    rw [if_pos]
    rw [hlen]
    omega
  · rw [Int64.toInt_add, hlen]
    apply Int.bmod_eq_of_le <;> omega

/- A bound of the materialized branch is Python's, up to the clamping to the length. -/
theorem materializedBound_eq (n default : Nat) (hn : n < 2 ^ 63) (hdefault : default ≤ n)
    (bound : Option Int64) :
    ∃ k, materializedBound (Int64.ofNat n) (Int64.ofNat default) bound = some k ∧
      min k n = sliceIndex n default (bound.map Int64.toInt) := by
  cases bound with
  | none =>
    refine ⟨default, ?_, Nat.min_eq_left hdefault⟩
    have hback : (Int64.ofNat default).toUInt64.toNat = default := by
      rw [Int64.toUInt64_ofNat', UInt64.toNat_ofNat_of_lt']
      have hsize : UInt64.size = 2 ^ 64 := rfl
      omega
    rw [materializedBound, hback]
  | some value =>
    by_cases hneg : value.toInt < 0
    · obtain ⟨sum, hsum, hint⟩ := checkedAdd_len n hn value hneg
      refine ⟨(asUnsigned sum).toNat, ?_, ?_⟩
      · rw [materializedBound, if_pos ((lt_zero_iff value).mpr hneg), hsum]
        rfl
      · rw [asUnsigned_toNat, hint, Option.map_some, sliceIndex, if_pos hneg]
        omega
    · refine ⟨(asUnsigned value).toNat, ?_, ?_⟩
      · rw [materializedBound, if_neg (fun h => hneg ((lt_zero_iff value).mp h))]
      · rw [asUnsigned_toNat, Option.map_some, sliceIndex, if_neg hneg]

theorem take_drop_min {α : Type} (data : List α) (start stop : Nat) :
    (data.take (min stop data.length)).drop (min start data.length) =
      (data.take stop).drop start := by
  rw [List.take_eq_take_min (i := stop)]
  by_cases h : start ≤ data.length
  · rw [Nat.min_eq_left h]
  · have hlen : (data.take (min stop data.length)).length ≤ data.length := by
      rw [List.length_take]
      omega
    rw [List.drop_of_length_le (by omega), List.drop_of_length_le (by omega)]

theorem sliceMaterialized_eq (data : List Byte) (hlen : data.length < 2 ^ 63)
    (start stop : Option Int64) :
    sliceMaterialized data start stop =
      some (pySlice data (start.map Int64.toInt) (stop.map Int64.toInt)) := by
  obtain ⟨first, hfirst, hstart⟩ := materializedBound_eq data.length 0 hlen (Nat.zero_le _) start
  obtain ⟨last, hlast, hstop⟩ := materializedBound_eq data.length data.length hlen (Nat.le_refl _)
    stop
  have hzero : (0 : Int64) = Int64.ofNat 0 := rfl
  unfold sliceMaterialized pySlice
  rw [← hstart, ← hstop]
  dsimp only
  rw [hzero, hfirst, Option.bind_eq_bind, Option.bind_some, hlast, Option.bind_some]
  by_cases hempty : last ≤ first
  · rw [if_pos hempty, List.drop_of_length_le]
    · rfl
    · rw [List.length_take]
      omega
  · rw [if_neg hempty]
    unfold indexRange
    rw [if_pos]
    constructor <;> omega

/-! ### Both branches -/

section
variable (backend : Backend σ Stream Writer Schema Batch) (sizes : Nat → ℕ+)
  (file : FsFile Writer Schema Batch) (bytes : List Byte) (hlen : bytes.length < 2 ^ 63)

include hlen in
theorem readToEnd_bytes (fuel : Nat) (hfuel : bytes.length < fuel)
    (h : AnswersAs backend.codecs file (Cursor.new bytes hlen)) :
    Reading.readToEnd (FsFile.read backend.codecs) sizes fuel 0 file = some (.ok bytes) :=
  Reading.readToEnd_serves (FsFile.read_serves backend.codecs) sizes fuel 0 file bytes
    ⟨_, h, rfl⟩ hfuel

/- The optional seek leaves what stands behind the start. -/
theorem sought_bytes (start : UInt64)
    (h : AnswersAs backend.codecs file (Cursor.new bytes hlen)) :
    ∃ position next, (if 0 < start then file.seek backend.codecs (.Start start)
        else (.ok 0, file)) = (.ok position, next) ∧
      StillToRead backend.codecs next (bytes.drop start.toNat) := by
  by_cases hpos : 0 < start
  · obtain ⟨next, hseek, hnext⟩ := FsFile.seek_start backend.codecs start file _ h
    exact ⟨start.toNat, next, by rw [if_pos hpos, hseek], _, hnext, rfl⟩
  · have hzero : start.toNat = 0 := by
      rw [UInt64.lt_iff_toNat_lt] at hpos
      have hnone : (0 : UInt64).toNat = 0 := rfl
      omega
    refine ⟨0, file, by rw [if_neg hpos], Cursor.new bytes hlen, h, ?_⟩
    rw [hzero]
    rfl

/- What a read up to `stop` gives, from where the seek left the file. -/
theorem limited_bytes (start stop : UInt64) (hlt : start < stop) (fuel : Nat)
    (hfuel : bytes.length < fuel)
    (h : StillToRead backend.codecs file (bytes.drop start.toNat)) :
    Reading.readToEnd (Reading.limited (FsFile.read backend.codecs)) sizes fuel 0
        ((stop - start).toNat, file) =
      some (.ok ((bytes.take stop.toNat).drop start.toNat)) := by
  have hcount : (stop - start).toNat = stop.toNat - start.toNat :=
    UInt64.toNat_sub_of_le stop start (UInt64.le_of_lt hlt)
  apply Reading.readToEnd_serves (Reading.limited_serves (FsFile.read_serves backend.codecs))
  · exact ⟨_, h, by rw [hcount, List.drop_take]⟩
  · rw [List.length_drop, List.length_take]
    omega

end

theorem sliceIndex_nonnegative (len default : Nat) (value : Int64) (h : ¬ value < 0) :
    sliceIndex len default (some value.toInt) = min (asUnsigned value).toNat len := by
  rw [lt_zero_iff] at h
  rw [sliceIndex, if_neg h, asUnsigned_toNat]

/- A start that is absent or not negative. -/
theorem sliceIndex_start (len : Nat) (start : Option Int64) (h : isNegative start = false) :
    sliceIndex len 0 (start.map Int64.toInt) = min (asUnsigned (start.getD 0)).toNat len := by
  cases start with
  | none => exact (Nat.zero_min len).symm
  | some value => exact sliceIndex_nonnegative len 0 value (by simpa [isNegative] using h)

theorem catFileDb_eq (backend : Backend σ Stream Writer Schema Batch) (s : σ) (path : Str)
    (file : FsFile Writer Schema Batch) (hopen : openDb backend s path = .ok file)
    (bytes : List Byte) (hlen : bytes.length < 2 ^ 63)
    (h : AnswersAs backend.codecs file (Cursor.new bytes hlen)) (sizes : Nat → ℕ+) (fuel : Nat)
    (hfuel : bytes.length < fuel) (start stop : Option Int64) :
    catFileDb backend sizes fuel s path start stop =
      some (.ok (pySlice bytes (start.map Int64.toInt) (stop.map Int64.toInt))) := by
  unfold catFileDb
  rw [hopen]
  dsimp only
  by_cases hneg : (isNegative start || isNegative stop) = true
  · rw [if_pos hneg, readToEnd_bytes backend sizes file bytes hlen fuel hfuel h]
    dsimp only
    rw [sliceMaterialized_eq bytes hlen]
    rfl
  · have hboth := (Bool.or_eq_false_iff).mp (Bool.eq_false_of_not_eq_true hneg)
    obtain ⟨position, next, hsought, hnext⟩ :=
      sought_bytes backend file bytes hlen (asUnsigned (start.getD 0)) h
    rw [if_neg hneg, hsought]
    dsimp only
    have hfirst := sliceIndex_start bytes.length start hboth.1
    cases stop with
    | none =>
      have hrest : (bytes.drop (asUnsigned (start.getD 0)).toNat).length < fuel := by
        rw [List.length_drop]
        omega
      dsimp only
      rw [Reading.readToEnd_serves (FsFile.read_serves backend.codecs) sizes fuel 0 next _ hnext
        hrest]
      have hslice := take_drop_min bytes (asUnsigned (start.getD 0)).toNat bytes.length
      rw [Nat.min_self, List.take_length] at hslice
      have hlast : sliceIndex bytes.length bytes.length (Option.map Int64.toInt none) =
          bytes.length := rfl
      simp only [pySlice, hfirst, hlast, List.take_length, hslice, Option.map_some,
        Except.mapError]
    | some value =>
      have hlast := sliceIndex_nonnegative bytes.length bytes.length value
        (by simpa [isNegative] using hboth.2)
      have hslice := take_drop_min bytes (asUnsigned (start.getD 0)).toNat
        (asUnsigned value).toNat
      dsimp only
      simp only [pySlice, hfirst, Option.map_some, hlast, hslice]
      by_cases hempty : asUnsigned value ≤ asUnsigned (start.getD 0)
      · have hle := UInt64.le_iff_toNat_le.mp hempty
        rw [if_pos hempty, List.drop_of_length_le]
        · rfl
        · rw [List.length_take]
          omega
      · rw [if_neg hempty, limited_bytes backend sizes next bytes _ _
          (UInt64.not_le.mp hempty) fuel hfuel hnext]
        rfl

/- Without bounds the whole file is read. -/
theorem catFileDb_whole (backend : Backend σ Stream Writer Schema Batch) (s : σ) (path : Str)
    (file : FsFile Writer Schema Batch) (hopen : openDb backend s path = .ok file)
    (sizes : Nat → ℕ+) (calls : Nat) (bytes : List Byte)
    (h : catFileDb backend sizes calls s path none none = some (.ok bytes)) :
    Reading.readToEnd (FsFile.read backend.codecs) sizes calls 0 file = some (.ok bytes) := by
  have hwhole : catFileDb backend sizes calls s path none none =
      (Reading.readToEnd (FsFile.read backend.codecs) sizes calls 0 file).map fun result =>
        result.mapError .Io := by
    unfold catFileDb
    rw [hopen]
    rfl
  rw [hwhole] at h
  obtain ⟨result, hread, hmap⟩ := Option.map_eq_some_iff.mp h
  cases result with
  | error err => cases hmap
  | ok data => rw [hread, Except.ok.inj hmap]

/-- Where a path can be read to its end, every range of it is Python's slice of what is
read, whatever the sizes of the reads and as soon as there are enough of them. -/
theorem catFile_eq_pySlice (backend : Backend σ Stream Writer Schema Batch) (s : σ) (path : Str)
    (bytes : List Byte) (hlen : bytes.length < 2 ^ 63) (sizes : Nat → ℕ+) (calls : Nat)
    (h : catFileDb backend sizes calls s path none none = some (.ok bytes)) :
    ∃ enough, ∀ sizes fuel start stop, enough ≤ fuel →
      catFileDb backend sizes fuel s path start stop =
          some (.ok (pySlice bytes (start.map Int64.toInt) (stop.map Int64.toInt))) ∧
        ∀ read : Str → Except DbError (List Byte), read path = .ok bytes →
          catFileDb backend sizes fuel s path start stop =
            some (Python.catFile read path (start.map Int64.toInt) (stop.map Int64.toInt)) := by
  cases hopen : openDb backend s path with
  | error err =>
    unfold catFileDb at h
    rw [hopen] at h
    cases h
  | ok file =>
    have hread := catFileDb_whole backend s path file hopen sizes calls bytes h
    have hanswers := answersAs_of_readToEnd backend s path file hopen bytes hlen sizes calls hread
    refine ⟨bytes.length + 1, fun sizes fuel start stop hfuel => ?_⟩
    have hcat := catFileDb_eq backend s path file hopen bytes hlen hanswers sizes fuel
      (by omega) start stop
    refine ⟨hcat, fun read hpath => ?_⟩
    rw [hcat, Python.catFile, hpath]
    rfl

/- A table of one text column with the values 1 and 2, and a view. -/
def idsDb : Database Unit Unit where
  dialect := .Sqlite
  listSchemas _ := .ok [⟨"main".toList, none, none⟩]
  listRelations _ _ := .ok []
  listColumns _ _ _ := .ok [⟨"id".toList, "TEXT".toList, true, none, 0, false, none⟩]
  listIndexes _ _ _ := .ok []
  listConstraints _ _ _ := .ok []
  relationInfo _ _ relation := .ok ⟨relation, .Table, none, none, none⟩
  viewDefinition _ _ _ := .ok "CREATE VIEW v AS SELECT 1".toList
  insert s _ _ _ _ := (.error (.NotSupported []), s)
  viewDependencies _ := []

def idsBackend : Backend Unit Unit (Str × Bool) Str (List Str) where
  db := idsDb
  query _ _ := .ok ("id".toList, [.ok ["1".toList], .ok ["2".toList]])
  sqlparser := Sql.comparisonParser false
  codecs := csvCodecs

/- The last four bytes of an encoded file, and bytes 7 to 11 of a finished one. -/
theorem catFile_eq_pySlice_ids :
    (∃ enough, ∀ fuel, enough ≤ fuel →
      catFileDb idsBackend (fun _ => 3) fuel () "/main/ids.csv".toList (some (-4)) none =
        some (.ok (Utf8.encode "1\n2\n".toList))) ∧
    ∃ enough, ∀ fuel, enough ≤ fuel →
      catFileDb idsBackend (fun _ => 3) fuel () "/main/v/definition.sql".toList (some 7)
        (some 11) = some (.ok (Utf8.encode "VIEW".toList)) := by
  constructor
  · obtain ⟨enough, hranges⟩ := catFile_eq_pySlice idsBackend () "/main/ids.csv".toList
      (Utf8.encode "id\n1\n2\n".toList) (by decide) (fun _ => 4) 9 (by decide)
    refine ⟨enough, fun fuel hfuel => ?_⟩
    exact (hranges (fun _ => 3) fuel (some (-4)) none hfuel).1.trans (by decide)
  · obtain ⟨enough, hranges⟩ := catFile_eq_pySlice idsBackend () "/main/v/definition.sql".toList
      (Utf8.encode "CREATE VIEW v AS SELECT 1".toList) (by decide) (fun _ => 32) 9 (by decide)
    refine ⟨enough, fun fuel hfuel => ?_⟩
    exact (hranges (fun _ => 3) fuel (some 7) (some 11) hfuel).1.trans (by decide)

end FsspecDb.Fs
