import FsspecDb.Bridge.Metadata
import FsspecDb.Lib.GroupBy

/-!
# Names in one text (mysql.rs, postgres.rs)

The servers join the column names of an index or a key with commas, and `split_csv` takes the
text apart again.
-/

namespace FsspecDb.Servers
open Text Bridge

def splitCsv (value : Str) : List Str := (value.splitOn ',').filter fun item => !item.isEmpty

/-! ### The aggregates -/

section
variable {ρ : Type} (position : ρ → Nat) (value : ρ → Option Str) (rows : List ρ)

/- The values of a group in the order of their positions, without the NULLs. -/
def ordered : List Str :=
  (rows.mergeSort fun row row' => position row ≤ position row').filterMap value

/- MySQL cuts a text that is longer than `group_concat_max_len` bytes behind a character. -/
def truncate : Nat → Str → Str
  | _, [] => []
  | limit, c :: text =>
    if (String.utf8EncodeChar c).length ≤ limit then
      c :: truncate (limit - (String.utf8EncodeChar c).length) text
    else []

/-- `GROUP_CONCAT(value ORDER BY position SEPARATOR ',')`. -/
def groupConcat (limit : Nat) : Option Str :=
  if ordered position value rows = [] then none
  else some (truncate limit (join [','] (ordered position value rows)))

/-- `string_agg(value, ',' ORDER BY position)`. -/
def stringAgg : Option Str :=
  if ordered position value rows = [] then none
  else some (join [','] (ordered position value rows))

/-- The rows of a key that gives each column its place. -/
theorem ordered_zipIdx {α : Type} (columns : List α) (name : α → Option Str) (start : Nat)
    (row : α × Nat → ρ) (hposition : ∀ entry, position (row entry) = entry.2)
    (hvalue : ∀ entry, value (row entry) = name entry.1)
    (hperm : rows.Perm ((columns.zipIdx start).map row)) :
    ordered position value rows = columns.filterMap name := by
  have hsort := Grouping.mergeSort_eq position rows _ hperm
    (Grouping.zipIdx_strict columns start row position hposition)
  have hfst : value ∘ row = name ∘ Prod.fst := funext hvalue
  rw [ordered, hsort, List.filterMap_map, hfst, ← List.filterMap_map, List.zipIdx_map_fst]

/- The text is empty where there is nothing to join. -/
theorem join_getD (names : List Str) (cut : Str → Str) (hcut : cut [] = []) :
    (if names = [] then none else some (cut (join [','] names))).getD [] =
      cut (join [','] names) := by
  split
  · next hempty =>
    rw [hempty]
    exact hcut.symm
  · rfl

theorem groupConcat_getD (limit : Nat) : (groupConcat position value rows limit).getD [] =
    truncate limit (join [','] (ordered position value rows)) :=
  join_getD _ (truncate limit) rfl

theorem stringAgg_getD : (stringAgg position value rows).getD [] =
    join [','] (ordered position value rows) :=
  join_getD _ id rfl

theorem ordered_perm : (ordered position value rows).Perm (rows.filterMap value) :=
  (List.mergeSort_perm _ _).filterMap value

end

/-! ### Reading the names back -/

theorem splitCsv_join_iff (names : List Str) :
    splitCsv (join [','] names) = names ↔ CommaFree names := splitNames_join_iff names

theorem splitCsv_commaFree (text : Str) : CommaFree (splitCsv text) := by
  intro name hname
  obtain ⟨hpart, hne⟩ := List.mem_filter.mp hname
  exact ⟨by simpa using hne, not_mem_of_mem_splitOn _ name ',' hpart⟩

/- How long the text is does not depend on the order of the names. -/
theorem join_bytes (names : List Str) (hne : names ≠ []) :
    (Utf8.encode (join [','] names)).length + 1 =
      (names.map fun name => (Utf8.encode name).length + 1).sum := by
  induction names with
  | nil => exact absurd rfl hne
  | cons name names ih =>
    cases names with
    | nil => simp [join, List.intercalate]
    | cons next names =>
      have hcons : join [','] (name :: next :: names) =
          name ++ ',' :: join [','] (next :: names) := by
        simp [join, List.intercalate]
      have hbytes : (Utf8.encode (name ++ ',' :: join [','] (next :: names))).length =
          (Utf8.encode name).length + 1 + (Utf8.encode (join [','] (next :: names))).length := by
        have hcomma : (String.utf8EncodeChar ',').length = 1 := by decide
        rw [Utf8.encode, List.flatMap_append, List.flatMap_cons, List.length_append,
          List.length_append, hcomma, Nat.add_assoc]
        rfl
      rw [hcons, hbytes, List.map_cons, List.sum_cons, ← ih (List.cons_ne_nil next names)]
      omega

theorem truncate_prefix (limit : Nat) (text : Str) : truncate limit text <+: text := by
  induction text generalizing limit with
  | nil => exact List.nil_prefix
  | cons c text ih =>
    rw [truncate]
    split
    · exact List.cons_prefix_cons.mpr ⟨rfl, ih _⟩
    · exact List.nil_prefix

theorem truncate_eq_iff (limit : Nat) (text : Str) :
    truncate limit text = text ↔ (Utf8.encode text).length ≤ limit := by
  induction text generalizing limit with
  | nil => simp [truncate, Utf8.encode]
  | cons c text ih =>
    have hcons : Utf8.encode (c :: text) = String.utf8EncodeChar c ++ Utf8.encode text := rfl
    rw [truncate, hcons, List.length_append]
    split
    · next hfits =>
      rw [List.cons.injEq, and_iff_right rfl, ih]
      omega
    · next hlong =>
      constructor
      · intro h
        cases h
      · intro h
        omega

/- The characters that are no separators. -/
def solid (text : Str) : Nat := text.countP fun c => c ≠ ','

theorem solid_append (text text' : Str) : solid (text ++ text') = solid text + solid text' :=
  List.countP_append

theorem solid_separator (text text' : Str) :
    solid (text ++ ',' :: text') = solid text + solid text' := by
  rw [solid_append, solid, solid, solid, List.countP_cons_of_neg (by decide)]

theorem solid_splitCsv (text : Str) : ((splitCsv text).map solid).sum = solid text :=
  sum_pieces solid ',' rfl solid_separator text

/- The text ends with the last name. -/
theorem join_getLast (names : List Str) (hne : names ≠ []) :
    ∃ before, join [','] names = before ++ names.getLast hne := by
  induction names with
  | nil => exact absurd rfl hne
  | cons name names ih =>
    cases names with
    | nil => exact ⟨[], by simp [join, List.intercalate]⟩
    | cons next names =>
      obtain ⟨before, hbefore⟩ := ih (List.cons_ne_nil next names)
      refine ⟨name ++ ',' :: before, ?_⟩
      have hcons : join [','] (name :: next :: names) =
          name ++ ',' :: join [','] (next :: names) := by
        simp [join, List.intercalate]
      rw [hcons, hbefore, List.getLast_cons (List.cons_ne_nil next names), List.append_assoc,
        List.cons_append]

/- A cut takes a character of the last name at least. -/
theorem eq_of_solid (names : List Str) (hfree : CommaFree names) (cut rest : Str)
    (hcut : join [','] names = cut ++ rest) (hsolid : solid (join [','] names) = solid cut) :
    rest = [] := by
  by_contra hrest
  have hzero : solid rest = 0 := by
    rw [hcut, solid_append] at hsolid
    omega
  have hcommas : ∀ c ∈ rest, c = ',' := by
    intro c hc
    have hnone := List.countP_eq_zero.mp hzero c hc
    simpa using hnone
  have hne : names ≠ [] := by
    rintro rfl
    have hnil : ([] : Str) = cut ++ rest := hcut
    exact hrest (List.append_eq_nil_iff.mp hnil.symm).2
  obtain ⟨before, hbefore⟩ := join_getLast names hne
  obtain ⟨hlastNe, hlastFree⟩ := hfree _ (List.getLast_mem hne)
  have hlast : (names.getLast hne).getLast? = rest.getLast? := by
    rw [← List.getLast?_append_of_ne_nil before hlastNe, ← hbefore, hcut,
      List.getLast?_append_of_ne_nil cut hrest]
  have hcomma := hcommas _ (List.getLast_mem hrest)
  rw [List.getLast?_eq_some_getLast hlastNe, List.getLast?_eq_some_getLast hrest,
    Option.some.injEq, hcomma] at hlast
  exact hlastFree (hlast ▸ List.getLast_mem hlastNe)

/-- Names come back from a cut text where they have no comma and nothing was cut. -/
theorem splitCsv_truncate_iff (limit : Nat) (names : List Str) :
    splitCsv (truncate limit (join [','] names)) = names ↔
      CommaFree names ∧ (Utf8.encode (join [','] names)).length ≤ limit := by
  constructor
  · intro h
    have hfree : CommaFree names := h ▸ splitCsv_commaFree _
    refine ⟨hfree, (truncate_eq_iff limit _).mp ?_⟩
    obtain ⟨rest, hrest⟩ := truncate_prefix limit (join [','] names)
    have hsolid : solid (join [','] names) = solid (truncate limit (join [','] names)) := by
      rw [← solid_splitCsv, (splitCsv_join_iff names).mpr hfree, ← solid_splitCsv, h]
    have hnone := eq_of_solid names hfree _ rest hrest.symm hsolid
    rw [hnone, List.append_nil] at hrest
    exact hrest
  · rintro ⟨hfree, hfits⟩
    rw [(truncate_eq_iff limit _).mpr hfits, (splitCsv_join_iff names).mpr hfree]

end FsspecDb.Servers
