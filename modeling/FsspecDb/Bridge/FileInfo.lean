import FsspecDb.Fs.Metadata
import FsspecDb.Sql.ReadShaping
import Mathlib.Data.List.AList

/-!
# Metadata as Python dictionaries (types.rs of the Python module)

The filesystem flattens the fields of an entry to strings, and the bridge gives them
their types back by the name of the key. Lists of columns are joined and split at commas.
-/

namespace FsspecDb.Bridge
open Text

/- The values that `file_info_to_dict` puts into a dictionary. -/
inductive PyItem where
  | bool (value : Bool)
  | int (value : Nat)
  | str (value : Str)
  | list (value : List Str)
  deriving Repr, DecidableEq

abbrev Dict := AList fun _ : Str => PyItem

/-- `str::parse::<u32>`. -/
def parseU32 (value : Str) : Option UInt32 :=
  let digits := if value.head? = some '+' then value.tail else value
  if digits = [] ∨ digits.all Char.isDigit = false then none
  else
    let n := Nat.ofDigitChars 10 digits 0
    if n < 2 ^ 32 then some (UInt32.ofNat n) else none

def splitNames (value : Str) : List Str :=
  (value.splitOn ',').filter fun column => !column.isEmpty

/- What `set_extra_item` makes of a text under a key. -/
def extraValue (key value : Str) : PyItem :=
  if key = "nullable".toList ∨ key = "primary_key".toList ∨ key = "size_known".toList ∨
      key = "unique".toList then
    if value = "true".toList then .bool true
    else if value = "false".toList then .bool false
    else .str value
  else if key = "row_count".toList ∨ key = "size_bytes".toList then
    (Sql.parseU64 value).elim (.str value) fun parsed => .int parsed.toNat
  else if key = "ordinal".toList then
    (parseU32 value).elim (.str value) fun parsed => .int parsed.toNat
  else if key = "columns".toList then .list (splitNames value)
  else .str value

def setExtraItem (dict : Dict) (key value : Str) : Dict := dict.insert key (extraValue key value)

def typeStr : FileType → Str
  | .File => "file".toList
  | .Directory => "directory".toList

def reserved (key : Str) : Bool :=
  key = "name".toList || key = "size".toList || key = "type".toList

def fileInfoToDict (info : FileInfo) : Dict :=
  let dict : Dict := (((∅ : Dict).insert "name".toList (.str info.name)).insert
    "size".toList (.int info.size)).insert "type".toList (.str (typeStr info.fileType))
  info.extra.foldl (fun dict entry =>
    if reserved entry.1 then dict else setExtraItem dict entry.1 entry.2) dict

/-! ### What a dictionary holds -/

/- The texts of an entry under their keys; `none` is a text left out. -/
def withTexts (info : FileInfo) (texts : List (Str × Option Str)) : FileInfo :=
  texts.foldl (fun info text => info.insertSome text.1 text.2) info

/- The entries of a map, each under its key once. -/
def DistinctExtra (info : FileInfo) : Prop := (info.extra.map Prod.fst).Nodup

theorem DistinctExtra.insertSome {info : FileInfo} (h : DistinctExtra info) (key : Str)
    (value : Option Str) : DistinctExtra (info.insertSome key value) := by
  cases value with
  | none => exact h
  | some value =>
    unfold DistinctExtra FileInfo.insertSome FileInfo.insert
    rw [List.map_cons, List.nodup_cons]
    constructor
    · intro hmem
      obtain ⟨entry, hentry, hkey⟩ := List.mem_map.mp hmem
      exact of_decide_eq_true (List.mem_filter.mp hentry).2 hkey
    · exact h.sublist (List.filter_sublist.map Prod.fst)

theorem DistinctExtra.withTexts {info : FileInfo} (h : DistinctExtra info)
    (texts : List (Str × Option Str)) : DistinctExtra (withTexts info texts) := by
  induction texts generalizing info with
  | nil => exact h
  | cons text texts ih => exact ih (h.insertSome text.1 text.2)

theorem get_insertSome (info : FileInfo) (key k : Str) (value : Option Str) :
    (info.insertSome key value).get k = if k = key then value.or (info.get k) else info.get k := by
  cases value with
  | none => simp [FileInfo.insertSome]
  | some value =>
    by_cases hk : k = key
    · rw [if_pos hk, hk, FileInfo.insertSome, FileInfo.insert_get_self, Option.some_or]
    · rw [if_neg hk, FileInfo.insertSome, FileInfo.insert_get_ne info key k value hk]

theorem get_withTexts_other (info : FileInfo) (texts : List (Str × Option Str)) (key : Str)
    (h : key ∉ texts.map Prod.fst) : (withTexts info texts).get key = info.get key := by
  induction texts generalizing info with
  | nil => rfl
  | cons text texts ih =>
    rw [List.map_cons, List.mem_cons, not_or] at h
    exact (ih _ h.2).trans ((get_insertSome info text.1 key text.2).trans (if_neg h.1))

theorem get_withTexts (info : FileInfo) (texts : List (Str × Option Str))
    (hkeys : (texts.map Prod.fst).Nodup) (text : Str × Option Str) (htext : text ∈ texts)
    (hnew : info.get text.1 = none) : (withTexts info texts).get text.1 = text.2 := by
  induction texts generalizing info with
  | nil => exact absurd htext List.not_mem_nil
  | cons first texts ih =>
    rw [List.map_cons, List.nodup_cons] at hkeys
    have hinserted := get_insertSome info first.1 text.1 first.2
    rcases List.mem_cons.mp htext with heq | hrest
    · subst heq
      rw [if_pos rfl, hnew, Option.or_none] at hinserted
      exact (get_withTexts_other _ texts text.1 hkeys.1).trans hinserted
    · have hne : text.1 ≠ first.1 := fun heq =>
        hkeys.1 (heq ▸ List.mem_map_of_mem hrest)
      rw [if_neg hne, hnew] at hinserted
      exact ih _ hkeys.2 hrest hinserted

/- The loop over the extra entries, from any dictionary. -/
theorem foldl_extra_lookup (extra : List (Str × Str)) (dict : Dict) (key : Str)
    (hdistinct : (extra.map Prod.fst).Nodup) (hkey : reserved key = false) :
    (extra.foldl (fun dict entry =>
        if reserved entry.1 then dict else setExtraItem dict entry.1 entry.2) dict).lookup key =
      ((extra.lookup key).map (extraValue key)).or (dict.lookup key) := by
  induction extra generalizing dict with
  | nil => rfl
  | cons entry extra ih =>
    obtain ⟨k, v⟩ := entry
    rw [List.map_cons, List.nodup_cons] at hdistinct
    rw [List.foldl_cons, ih _ hdistinct.2, List.lookup_cons]
    by_cases hk : key = k
    · have hnone : extra.lookup key = none := by
        rw [List.lookup_eq_none_iff]
        intro other hother
        have hne : k ≠ other.1 := fun heq =>
          hdistinct.1 (List.mem_map.mpr ⟨other, hother, heq.symm⟩)
        simpa [hk] using hne
      subst hk
      rw [hnone, hkey]
      simp [setExtraItem]
    · have hbeq : (key == k) = false := by simpa using hk
      rw [hbeq]
      cases reserved k with
      | true => rfl
      | false => simp [setExtraItem, AList.lookup_insert_ne hk]

theorem foldl_extra_reserved (extra : List (Str × Str)) (dict : Dict) (key : Str)
    (hkey : reserved key = true) :
    (extra.foldl (fun dict entry =>
        if reserved entry.1 then dict else setExtraItem dict entry.1 entry.2) dict).lookup key =
      dict.lookup key := by
  induction extra generalizing dict with
  | nil => rfl
  | cons entry extra ih =>
    rw [List.foldl_cons, ih]
    split
    · rfl
    · next hentry =>
      have hne : key ≠ entry.1 := fun heq => hentry (heq ▸ hkey)
      exact AList.lookup_insert_ne hne

theorem fileInfoToDict_name (info : FileInfo) :
    (fileInfoToDict info).lookup "name".toList = some (.str info.name) := by
  rw [fileInfoToDict, foldl_extra_reserved _ _ _ (by decide)]
  rw [AList.lookup_insert_ne (by decide), AList.lookup_insert_ne (by decide), AList.lookup_insert]

theorem fileInfoToDict_extra (info : FileInfo) (key : Str) (hdistinct : DistinctExtra info)
    (hkey : reserved key = false) :
    (fileInfoToDict info).lookup key = (info.get key).map (extraValue key) := by
  rw [fileInfoToDict, foldl_extra_lookup _ _ _ hdistinct hkey]
  simp only [reserved, Bool.or_eq_false_iff, decide_eq_false_iff_not] at hkey
  rw [AList.lookup_insert_ne hkey.2, AList.lookup_insert_ne hkey.1.2,
    AList.lookup_insert_ne hkey.1.1, AList.lookup_empty, Option.or_none]
  rfl

/-! ### Fields -/

abbrev Field := Str × Option PyItem

/- A key is absent exactly where the field is `none`. -/
def Holds (dict : Dict) (fields : List Field) : Prop :=
  ∀ field ∈ fields, dict.lookup field.1 = field.2

def Same (dict dict' : Dict) : Prop := ∀ key, dict.lookup key = dict'.lookup key

theorem holds_iff_map (dict : Dict) (fields : List Field) :
    Holds dict fields ↔ (fields.map Prod.fst).map (fun key => (key, dict.lookup key)) = fields := by
  rw [List.map_map]
  constructor
  · intro h
    conv_rhs => rw [← List.map_id fields]
    apply List.map_congr_left
    intro field hfield
    exact Prod.ext rfl (h field hfield)
  · intro h field hfield
    rw [← h] at hfield
    obtain ⟨other, -, rfl⟩ := List.mem_map.mp hfield
    rfl

/- One dictionary holds one list of fields under the same keys. -/
theorem Holds.unique {dict dict' : Dict} {fields fields' : List Field} (h : Holds dict fields)
    (h' : Holds dict' fields') (hsame : Same dict dict')
    (hkeys : fields.map Prod.fst = fields'.map Prod.fst) : fields = fields' := by
  have hlookup : (fun key => (key, dict.lookup key)) = fun key => (key, dict'.lookup key) :=
    funext fun key => Prod.ext rfl (hsame key)
  rw [← (holds_iff_map dict fields).mp h, ← (holds_iff_map dict' fields').mp h', hkeys, hlookup]

/- What the texts are read back as. -/
def readBack (texts : List (Str × Option Str)) : List Field :=
  texts.map fun text => (text.1, text.2.map (extraValue text.1))

theorem withTexts_holds (info : FileInfo) (texts : List (Str × Option Str))
    (hnew : info.extra = []) (hkeys : (texts.map Prod.fst).Nodup)
    (hunreserved : (texts.map Prod.fst).any reserved = false) :
    Holds (fileInfoToDict (withTexts info texts)) (readBack texts) := by
  have hdistinct : DistinctExtra (withTexts info texts) := by
    apply DistinctExtra.withTexts
    unfold DistinctExtra
    rw [hnew]
    exact List.nodup_nil
  intro field hfield
  obtain ⟨text, htext, rfl⟩ := List.mem_map.mp hfield
  have hkey : reserved text.1 = false := by
    have hnone := List.any_eq_false.mp hunreserved text.1 (List.mem_map_of_mem htext)
    simpa using hnone
  have habsent : info.get text.1 = none := by
    rw [FileInfo.get, hnew]
    rfl
  dsimp only
  rw [fileInfoToDict_extra _ _ hdistinct hkey, get_withTexts info texts hkeys text htext habsent]

/- An entry tells its fields where its texts are read back as the fields. -/
theorem withTexts_holds_iff (info : FileInfo) (texts : List (Str × Option Str))
    (fields : List Field) (hnew : info.extra = []) (keys : List Str) (hkeys : keys.Nodup)
    (hunreserved : keys.any reserved = false) (htexts : texts.map Prod.fst = keys)
    (hfields : fields.map Prod.fst = keys) :
    Holds (fileInfoToDict (withTexts info texts)) fields ↔ readBack texts = fields := by
  have hread : Holds (fileInfoToDict (withTexts info texts)) (readBack texts) :=
    withTexts_holds info texts hnew (htexts ▸ hkeys) (htexts ▸ hunreserved)
  have hreadKeys : (readBack texts).map Prod.fst = fields.map Prod.fst := by
    rw [readBack, List.map_map, hfields, ← htexts]
    rfl
  constructor
  · intro h
    exact hread.unique h (fun _ => rfl) hreadKeys
  · intro h
    rwa [← h]

end FsspecDb.Bridge
