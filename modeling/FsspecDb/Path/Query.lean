import FsspecDb.Path.Decode
import FsspecDb.Text.Split

/-!
# Query parameters of a path

`split_query` decodes every key and value, and `to_path` joins the decoded ones. The
percent signs of a text say whether it is read back.
-/

namespace FsspecDb
open Text

/-- The parts of a query that are not empty. -/
def queryParts (text : Str) : List Str := (text.splitOn '&').filter fun part => !part.isEmpty

/-- Key and value of a part, before they are decoded. -/
def rawPair (part : Str) : Str × Str := (splitOnce part ['=']).getD (part, [])

def rawPairs (text : Str) : List (Str × Str) := (queryParts text).map rawPair

def decodePair (pair : Str × Str) : Str × Str := (percentDecode pair.1, percentDecode pair.2)

def decodeQuery (text : Str) : List (Str × Str) := (rawPairs text).map decodePair

/-- The query as `to_path` writes it. -/
def queryText (pairs : List (Str × Str)) : Str :=
  join ['&'] (pairs.map fun (key, value) => key ++ '=' :: value)

/-- A text that is the same after it was joined into a query and read back. -/
def Verbatim (text : Str) : Prop := '&' ∉ text ∧ '+' ∉ text ∧ hasEscape text = false

instance (text : Str) : Decidable (Verbatim text) := inferInstanceAs (Decidable (_ ∧ _))

theorem splitQuery_eq (path : Str) :
    splitQuery path = match splitOnce path ['?'] with
      | none => (path, [])
      | some (pathPart, text) => (pathPart, decodeQuery text) := by
  unfold splitQuery
  cases splitOnce path ['?'] with
  | none => rfl
  | some p =>
    simp only [decodeQuery, rawPairs, List.map_map]
    refine congrArg (Prod.mk p.1) (List.map_congr_left fun part _ => ?_)
    rw [Function.comp_apply, rawPair, decodePair]
    cases splitOnce part ['='] <;> rfl

/-! ### Counting characters -/

/-- How often a character stands in the keys and values. -/
def total (c : Char) (pairs : List (Str × Str)) : Nat :=
  (pairs.map fun pair => pair.1.count c + pair.2.count c).sum

theorem total_cons (c : Char) (pair : Str × Str) (pairs : List (Str × Str)) :
    total c (pair :: pairs) = pair.1.count c + pair.2.count c + total c pairs := rfl

theorem count_separator (c separator : Char) (h : c ≠ separator) (s t : Str) :
    (s ++ separator :: t).count c = s.count c + t.count c := by
  rw [List.count_append, List.count_cons_of_ne h.symm]

theorem count_join (c separator : Char) (parts : List Str) (h : c ≠ separator) :
    (join [separator] parts).count c = (parts.map (List.count c)).sum :=
  sum_join (List.count c) separator List.count_nil (count_separator c separator h) parts

theorem count_queryText (c : Char) (pairs : List (Str × Str)) (hand : c ≠ '&') (heq : c ≠ '=') :
    (queryText pairs).count c = total c pairs := by
  rw [queryText, count_join c '&' _ hand, total, List.map_map]
  refine congrArg List.sum (List.map_congr_left fun pair _ => ?_)
  rw [Function.comp_apply, List.count_append, List.count_cons_of_ne heq.symm]

theorem count_rawPair (c : Char) (part : Str) (heq : c ≠ '=') :
    (rawPair part).1.count c + (rawPair part).2.count c = part.count c := by
  rw [rawPair]
  cases hsplit : splitOnce part ['='] with
  | none => rfl
  | some p =>
    have hpart := splitOnce_eq_some part ['='] p.1 p.2 hsplit
    rw [hpart, List.count_append, List.count_append, List.count_cons_of_ne heq.symm]
    rfl

theorem total_rawPairs (c : Char) (text : Str) (hand : c ≠ '&') (heq : c ≠ '=') :
    total c (rawPairs text) = text.count c := by
  rw [total, rawPairs, List.map_map,
    ← sum_pieces (List.count c) '&' List.count_nil (count_separator c '&' hand) text, queryParts]
  exact congrArg List.sum (List.map_congr_left fun part _ => count_rawPair c part heq)

/-- The escapes of other bytes than that of a percent sign, in all keys and values. -/
def totalOther (pairs : List (Str × Str)) : Nat :=
  (pairs.map fun pair => otherEscapes pair.1 + otherEscapes pair.2).sum

theorem totalOther_cons (pair : Str × Str) (pairs : List (Str × Str)) :
    totalOther (pair :: pairs) = otherEscapes pair.1 + otherEscapes pair.2 + totalOther pairs := rfl

theorem total_decode (pairs : List (Str × Str)) :
    total '%' pairs = total '%' (pairs.map decodePair) + totalOther pairs := by
  induction pairs with
  | nil => rfl
  | cons pair pairs ih =>
    have hkey := count_percent pair.1
    have hvalue := count_percent pair.2
    rw [List.map_cons, total_cons, total_cons, totalOther_cons, ih, decodePair, hkey, hvalue]
    dsimp only
    omega

/-- A query that decodes to pairs with as many percent signs has no escapes but of these. -/
theorem no_other_escapes (text : Str) (pairs : List (Str × Str))
    (hdecode : decodeQuery text = pairs)
    (hcount : text.count '%' ≤ (queryText pairs).count '%') :
    ∀ raw ∈ rawPairs text, otherEscapes raw.1 = 0 ∧ otherEscapes raw.2 = 0 := by
  have htotal := total_decode (rawPairs text)
  rw [← decodeQuery, hdecode, total_rawPairs '%' text (by decide) (by decide)] at htotal
  rw [count_queryText '%' pairs (by decide) (by decide)] at hcount
  have hzero : totalOther (rawPairs text) = 0 := by omega
  intro raw hraw
  have hsum := List.sum_eq_zero_iff_forall_eq_nat.mp hzero _ (List.mem_map_of_mem hraw)
  omega

theorem count_decodePair (c : Char) (raw : Str × Str) (hhex : hexChar c = none) (hplus : c ≠ '+')
    (hspace : c ≠ ' ') (hpercent : c ≠ '%')
    (hraw : otherEscapes raw.1 = 0 ∧ otherEscapes raw.2 = 0) :
    (decodePair raw).1.count c = raw.1.count c ∧ (decodePair raw).2.count c = raw.2.count c := by
  rw [decodePair, percentDecode_of_no_other raw.1 hraw.1, percentDecode_of_no_other raw.2 hraw.2]
  exact ⟨count_map_char raw.1 c hhex hplus hspace hpercent,
    count_map_char raw.2 c hhex hplus hspace hpercent⟩

/-! ### Queries that are read back -/

theorem rawPair_of_mem (text : Str) (raw : Str × Str) (h : raw ∈ rawPairs text) :
    '&' ∉ raw.1 ∧ '&' ∉ raw.2 ∧ '=' ∉ raw.1 := by
  obtain ⟨part, hpart, rfl⟩ := List.mem_map.mp h
  have hand := not_mem_of_mem_splitOn text part '&' (List.mem_filter.mp hpart).1
  rw [rawPair]
  cases hsplit : splitOnce part ['='] with
  | none =>
    have heq := (splitOnce_eq_none_iff part ['='] (by simp)).mp hsplit
    exact ⟨hand, by simp, fun hmem => heq ((List.singleton_infix_iff ..).mpr hmem)⟩
  | some p =>
    obtain ⟨rfl, heq⟩ := splitOnce_char_eq_some part p.1 p.2 '=' hsplit
    rw [List.mem_append, List.mem_cons, not_or, not_or] at hand
    exact ⟨hand.1, hand.2.2, heq⟩

theorem rawPairs_queryText (pairs : List (Str × Str))
    (h : ∀ pair ∈ pairs, '&' ∉ pair.1 ∧ '&' ∉ pair.2 ∧ '=' ∉ pair.1) :
    rawPairs (queryText pairs) = pairs := by
  have hparts : queryParts (queryText pairs) = pairs.map fun pair => pair.1 ++ '=' :: pair.2 := by
    cases pairs with
    | nil => rfl
    | cons pair pairs =>
      rw [queryParts, queryText, join, List.splitOn_intercalate '&' _ (by simp),
        List.filter_eq_self.mpr]
      · intro part hpart
        obtain ⟨pair, _, rfl⟩ := List.mem_map.mp hpart
        simp
      · intro part hpart
        obtain ⟨pair, hpair, rfl⟩ := List.mem_map.mp hpart
        obtain ⟨hkey, hvalue, _⟩ := h pair hpair
        simp [hkey, hvalue]
  rw [rawPairs, hparts, List.map_map]
  refine (List.map_congr_left fun pair hpair => ?_).trans (List.map_id' pairs)
  rw [Function.comp_apply, rawPair, splitOnce_append _ _ '=' (h pair hpair).2.2]
  rfl

/-- A list of pairs is read back exactly if no key and no value needs an escape. -/
theorem decodeQuery_queryText_iff (pairs : List (Str × Str)) :
    decodeQuery (queryText pairs) = pairs ↔
      ∀ pair ∈ pairs, Verbatim pair.1 ∧ Verbatim pair.2 ∧ '=' ∉ pair.1 := by
  constructor
  · intro h
    have hother := no_other_escapes (queryText pairs) pairs h (Nat.le_refl _)
    have hseparators : ∀ pair ∈ pairs, '&' ∉ pair.1 ∧ '&' ∉ pair.2 ∧ '=' ∉ pair.1 := by
      intro pair hpair
      rw [← h] at hpair
      obtain ⟨raw, hraw, rfl⟩ := List.mem_map.mp hpair
      obtain ⟨hkey, hvalue, hequal⟩ := rawPair_of_mem _ raw hraw
      have hand := count_decodePair '&' raw (by decide) (by decide) (by decide) (by decide)
        (hother raw hraw)
      have heq := count_decodePair '=' raw (by decide) (by decide) (by decide) (by decide)
        (hother raw hraw)
      rw [List.count_eq_zero.mpr hkey, List.count_eq_zero.mpr hvalue] at hand
      rw [List.count_eq_zero.mpr hequal] at heq
      exact ⟨List.count_eq_zero.mp hand.1, List.count_eq_zero.mp hand.2,
        List.count_eq_zero.mp heq.1⟩
    intro pair hpair
    have hfixed : pairs.map decodePair = pairs.map id := by
      rw [decodeQuery, rawPairs_queryText pairs hseparators] at h
      rw [h, List.map_id]
    have hpairFixed : decodePair pair = pair := List.map_inj_left.mp hfixed pair hpair
    obtain ⟨hkey, hvalue⟩ := Prod.mk.inj hpairFixed
    obtain ⟨hand, hand', heq⟩ := hseparators pair hpair
    exact ⟨⟨hand, (percentDecode_eq_self_iff _).mp hkey⟩,
      ⟨hand', (percentDecode_eq_self_iff _).mp hvalue⟩, heq⟩
  · intro h
    rw [decodeQuery, rawPairs_queryText pairs fun pair hpair =>
      ⟨(h pair hpair).1.1, (h pair hpair).2.1.1, (h pair hpair).2.2⟩]
    refine (List.map_congr_left fun pair hpair => ?_).trans (List.map_id' pairs)
    obtain ⟨hkey, hvalue, _⟩ := h pair hpair
    rw [decodePair, (percentDecode_eq_self_iff _).mpr hkey.2,
      (percentDecode_eq_self_iff _).mpr hvalue.2]

end FsspecDb
