import FsspecDb.Lib.Quote
import FsspecDb.Error
import Mathlib.Data.List.Infix

/-!
# String literals

How a database reads a quoted literal, with and without backslash escapes, how
sqlparser prints one, and when the two fit together.
-/

namespace FsspecDb.Sql

/-- What MySQL makes of the character after a backslash; `\%` and `\_` keep it. -/
def unescape (c : Char) : Str :=
  if c = '0' then ['\x00']
  else if c = 'b' then ['\x08']
  else if c = 'n' then ['\n']
  else if c = 'r' then ['\r']
  else if c = 't' then ['\t']
  else if c = 'Z' then ['\x1a']
  else if c = '%' ∨ c = '_' then ['\\', c]
  else [c]

/-- A literal of MySQL up to its closing quote: the value and what comes after. -/
def readEscaped : Str → Option (Str × Str)
  | [] => none
  | [c] => if c = '\'' then some ([], []) else none
  | c :: d :: input =>
    if c = '\\' then (readEscaped input).map fun (value, rest) => (unescape d ++ value, rest)
    else if c = '\'' then
      if d = '\'' then (readEscaped input).map fun (value, rest) => ('\'' :: value, rest)
      else some ([], d :: input)
    else (readEscaped (d :: input)).map fun (value, rest) => (c :: value, rest)

/-- A literal read by the rules of a database that has backslash escapes, or not. -/
def readLiteral (escapes : Bool) (input : Str) : Option (Str × Str) :=
  if escapes then readEscaped input else Quote.readQuoted '\'' input

/- A quote that sqlparser prints twice. -/
def DisplaysTwice (previous : Option Char) (c : Char) (rest : Str) : Prop :=
  c = '\'' ∧ previous ≠ some '\\' ∧ previous ≠ some '\'' ∧ rest.head? ≠ some '\''

instance (previous : Option Char) (c : Char) (rest : Str) :
    Decidable (DisplaysTwice previous c rest) :=
  inferInstanceAs (Decidable (_ ∧ _ ∧ _ ∧ _))

/-- sqlparser's `Display` of the value of a quoted literal: each quote twice, except one
after a backslash or next to another quote. -/
def escapeQuotedString (previous : Option Char) : Str → Str
  | [] => []
  | c :: rest =>
    if DisplaysTwice previous c rest then c :: c :: escapeQuotedString (some c) rest
    else c :: escapeQuotedString (some c) rest

/-- No quote follows a backslash or another quote. -/
def LoneQuotes (value : Str) : Prop :=
  ¬ ['\'', '\''] <:+: value ∧ ¬ ['\\', '\''] <:+: value

/-- No two quotes in a row, and each backslash stands before `%` or `_`. -/
def LoneQuotesAndWildcards (value : Str) : Prop :=
  ¬ ['\'', '\''] <:+: value ∧
    ∀ before after, value = before ++ '\\' :: after →
      after.head? = some '%' ∨ after.head? = some '_'

instance (value : Str) : Decidable (LoneQuotes value) :=
  inferInstanceAs (Decidable (_ ∧ _))

/-- The values that are printed as a literal of the same value. -/
def PrintsFaithfully (escapes : Bool) (value : Str) : Prop :=
  if escapes then LoneQuotesAndWildcards value else LoneQuotes value

/-! ### What is printed once, and what it costs to write a value -/

def printedOnce (previous : Option Char) : Str → Nat
  | [] => 0
  | c :: rest =>
    (if c = '\'' ∧ ¬ DisplaysTwice previous c rest then 1 else 0) + printedOnce (some c) rest

def lostBackslashes : Str → Nat
  | [] => 0
  | c :: rest =>
    (if c = '\\' ∧ rest.head? ≠ some '%' ∧ rest.head? ≠ some '_' then 1 else 0) +
      lostBackslashes rest

theorem escapeQuotedString_length (previous : Option Char) (value : Str) :
    (escapeQuotedString previous value).length + printedOnce previous value =
      (Quote.double '\'' value).length := by
  induction value generalizing previous with
  | nil => rfl
  | cons c rest ih =>
    have hrest := ih (some c)
    by_cases hc : c = '\''
    · subst hc
      by_cases htwice : DisplaysTwice previous '\'' rest
      · simp only [escapeQuotedString, printedOnce, Quote.double, htwice, if_true,
          not_true_eq_false, and_false, if_false, List.length_cons]
        omega
      · simp only [escapeQuotedString, printedOnce, Quote.double, htwice, if_false,
          not_false_eq_true, and_self, if_true, List.length_cons]
        omega
    · have htwice : ¬ DisplaysTwice previous c rest := fun h => hc h.1
      simp only [escapeQuotedString, printedOnce, Quote.double, htwice, if_false, hc, false_and,
        List.length_cons]
      omega

theorem escapeQuotedString_eq_double (previous : Option Char) (value : Str)
    (h : printedOnce previous value = 0) :
    escapeQuotedString previous value = Quote.double '\'' value := by
  induction value generalizing previous with
  | nil => rfl
  | cons c rest ih =>
    rw [printedOnce, Nat.add_eq_zero_iff] at h
    obtain ⟨hc, hrest⟩ := h
    rw [escapeQuotedString, Quote.double, ih _ hrest]
    by_cases hquote : c = '\''
    · have htwice : DisplaysTwice previous c rest := by
        by_contra hnot
        rw [if_pos ⟨hquote, hnot⟩] at hc
        exact absurd hc (by decide)
      rw [if_pos htwice, if_pos hquote, hquote]
    · rw [if_neg fun h => hquote h.1, if_neg hquote]

theorem pair_infix_cons (a b c : Char) (rest : Str) :
    [a, b] <:+: c :: rest ↔ (c = a ∧ rest.head? = some b) ∨ [a, b] <:+: rest := by
  rw [List.infix_cons_iff]
  cases rest with
  | nil => simp
  | cons d rest => simp [List.cons_prefix_cons, eq_comm]

theorem printedOnce_eq_zero_iff (previous : Option Char) (value : Str) :
    printedOnce previous value = 0 ↔
      LoneQuotes value ∧
        (value.head? = some '\'' → previous ≠ some '\\' ∧ previous ≠ some '\'') := by
  unfold LoneQuotes
  induction value generalizing previous with
  | nil => simp [printedOnce]
  | cons c rest ih =>
    rw [printedOnce, Nat.add_eq_zero_iff, ih, pair_infix_cons, pair_infix_cons]
    by_cases hc : c = '\''
    · subst hc
      simp [DisplaysTwice]
      tauto
    · simp [hc]
      tauto

theorem lostBackslashes_eq_zero_iff (value : Str) :
    lostBackslashes value = 0 ↔ ∀ before after, value = before ++ '\\' :: after →
      after.head? = some '%' ∨ after.head? = some '_' := by
  induction value with
  | nil => simp [lostBackslashes]
  | cons c rest ih =>
    rw [lostBackslashes, Nat.add_eq_zero_iff, ih]
    constructor
    · intro hgiven before after heq
      obtain ⟨hc, hrest⟩ := hgiven
      cases before with
      | nil =>
        obtain ⟨rfl, rfl⟩ := List.cons.inj heq
        by_contra hnot
        rw [not_or] at hnot
        simp [hnot] at hc
      | cons d before =>
        obtain ⟨rfl, rfl⟩ := List.cons.inj heq
        exact hrest before after rfl
    · intro h
      refine ⟨?_, fun before after heq => h (c :: before) after (by rw [heq]; rfl)⟩
      rw [if_neg]
      intro hall
      obtain ⟨rfl, hpercent, hunderscore⟩ := hall
      exact (h [] rest rfl).elim hpercent hunderscore

/-- With no quote after a backslash, a value is printed by doubling its quotes. -/
theorem escapeQuotedString_of_loneQuotes (value : Str) (h : LoneQuotes value) :
    escapeQuotedString none value = Quote.double '\'' value :=
  escapeQuotedString_eq_double none value
    ((printedOnce_eq_zero_iff none value).mpr ⟨h, fun _ => by simp⟩)

/-! ### Reading back without escapes -/

theorem readQuoted_escapeQuotedString_iff (value rest : Str) (hrest : rest.head? ≠ some '\'') :
    Quote.readQuoted '\'' (escapeQuotedString none value ++ '\'' :: rest) = some (value, rest) ↔
      LoneQuotes value := by
  rw [Quote.readQuoted_eq_some_iff, List.append_left_inj]
  constructor
  · intro hgiven
    obtain ⟨heq, _⟩ := hgiven
    have hlength := escapeQuotedString_length none value
    rw [heq] at hlength
    exact ((printedOnce_eq_zero_iff none value).mp (by omega)).1
  · intro h
    exact ⟨escapeQuotedString_of_loneQuotes value h, hrest⟩

/-! ### Reading back with escapes -/

def bodyLength (value : Str) : Nat := (Quote.double '\'' value).length + lostBackslashes value

theorem bodyLength_cons (c : Char) (value : Str) (hescape : c ≠ '\\') (hquote : c ≠ '\'') :
    bodyLength (c :: value) = bodyLength value + 1 := by
  simp only [bodyLength, Quote.double, hquote, if_false, lostBackslashes, hescape, false_and,
    List.length_cons]
  omega

theorem bodyLength_quote (value : Str) : bodyLength ('\'' :: value) = bodyLength value + 2 := by
  simp only [bodyLength, Quote.double, if_true, lostBackslashes, List.length_cons]
  rw [if_neg (by simp)]
  omega

theorem bodyLength_cons_le (c : Char) (value : Str) :
    bodyLength (c :: value) ≤ bodyLength value + 2 := by
  by_cases hescape : c = '\\'
  · simp only [bodyLength, Quote.double, lostBackslashes, hescape]
    rw [if_neg (by decide), List.length_cons]
    split <;> omega
  by_cases hquote : c = '\''
  · rw [hquote]
    exact (bodyLength_quote value).le
  · rw [bodyLength_cons c value hescape hquote]
    omega

theorem bodyLength_wildcard (c : Char) (value : Str) (h : c = '%' ∨ c = '_') :
    bodyLength ('\\' :: c :: value) = bodyLength value + 2 := by
  have hlost : lostBackslashes ('\\' :: c :: value) = lostBackslashes (c :: value) := by
    rw [lostBackslashes, if_neg (by simpa [← or_iff_not_imp_left] using h), Nat.zero_add]
  have hcons : bodyLength (c :: value) = bodyLength value + 1 := by
    rcases h with rfl | rfl <;> exact bodyLength_cons _ value (by decide) (by decide)
  rw [bodyLength] at hcons
  rw [bodyLength, hlost, Quote.double, if_neg (by decide), List.length_cons]
  omega

theorem unescape_cases (c : Char) :
    (unescape c = ['\\', c] ∧ (c = '%' ∨ c = '_')) ∨ ∃ d, unescape c = [d] := by
  unfold unescape
  split_ifs with h0 hb hn hr ht hz hwild
  all_goals first
    | exact .inl ⟨rfl, hwild⟩
    | exact .inr ⟨_, rfl⟩

theorem bodyLength_unescape_le (c : Char) (value : Str) :
    bodyLength (unescape c ++ value) ≤ bodyLength value + 2 := by
  rcases unescape_cases c with ⟨heq, hwild⟩ | ⟨d, heq⟩
  · rw [heq]
    exact (bodyLength_wildcard c value hwild).le
  · rw [heq]
    exact bodyLength_cons_le d value

/- What was read up to the closing quote is as long as the value requires. -/
theorem bodyLength_of_readEscaped (input value rest : Str)
    (h : readEscaped input = some (value, rest)) :
    bodyLength value + 1 + rest.length ≤ input.length := by
  fun_induction readEscaped input generalizing value with
  | case1 => simp at h
  | case2 =>
    obtain ⟨rfl, rfl⟩ := Prod.mk.inj (Option.some.inj h)
    simp [bodyLength, Quote.double, lostBackslashes]
  | case3 => simp at h
  | case4 d input ih =>
    obtain ⟨⟨value', rest'⟩, hread, heq⟩ := Option.map_eq_some_iff.mp h
    obtain ⟨rfl, rfl⟩ := Prod.mk.inj heq
    have hle := bodyLength_unescape_le d value'
    have hrest := ih value' hread
    simp only [List.length_cons]
    omega
  | case5 input _ ih =>
    obtain ⟨⟨value', rest'⟩, hread, heq⟩ := Option.map_eq_some_iff.mp h
    obtain ⟨rfl, rfl⟩ := Prod.mk.inj heq
    have hrest := ih value' hread
    rw [bodyLength_quote]
    simp only [List.length_cons]
    omega
  | case6 d input =>
    obtain ⟨rfl, rfl⟩ := Prod.mk.inj (Option.some.inj h)
    simp only [bodyLength, Quote.double, lostBackslashes, List.length_cons, List.length_nil]
    omega
  | case7 c d input hescape hquote ih =>
    obtain ⟨⟨value', rest'⟩, hread, heq⟩ := Option.map_eq_some_iff.mp h
    obtain ⟨rfl, rfl⟩ := Prod.mk.inj heq
    have hrest := ih value' hread
    rw [bodyLength_cons c value' hescape hquote]
    simp only [List.length_cons] at hrest ⊢
    omega

theorem readEscaped_cons_ne (c : Char) (input : Str) (hescape : c ≠ '\\') (hquote : c ≠ '\'') :
    readEscaped (c :: input) =
      (readEscaped input).map fun (value, rest) => (c :: value, rest) := by
  cases input with
  | nil => simp [readEscaped, hquote]
  | cons d input => rw [readEscaped, if_neg hescape, if_neg hquote]

/- The induction takes a backslash together with the wildcard behind it. -/
theorem readEscaped_double (value rest : Str) (hlost : lostBackslashes value = 0)
    (hrest : rest.head? ≠ some '\'') :
    readEscaped (Quote.double '\'' value ++ '\'' :: rest) = some (value, rest) := by
  induction hlength : value.length using Nat.strongRecOn generalizing value with
  | ind n ih =>
    cases value with
    | nil =>
      cases rest with
      | nil => rfl
      | cons d rest => simpa [Quote.double, readEscaped] using hrest
    | cons c value =>
      rw [lostBackslashes, Nat.add_eq_zero_iff] at hlost
      obtain ⟨hc, hvalue⟩ := hlost
      rw [List.length_cons] at hlength
      by_cases hescape : c = '\\'
      · subst hescape
        cases value with
        | nil => simp at hc
        | cons d value =>
          have hwild : d = '%' ∨ d = '_' := by
            by_contra hnot
            rw [not_or] at hnot
            simp [hnot] at hc
          have hquote : d ≠ '\'' := by rcases hwild with rfl | rfl <;> decide
          have hd : unescape d = ['\\', d] := by rcases hwild with rfl | rfl <;> rfl
          rw [lostBackslashes, Nat.add_eq_zero_iff] at hvalue
          rw [List.length_cons] at hlength
          rw [Quote.double, if_neg (by decide), Quote.double, if_neg hquote, List.cons_append,
            List.cons_append, readEscaped, if_pos rfl,
            ih value.length (by omega) value hvalue.2 rfl, hd]
          rfl
      · by_cases hquote : c = '\''
        · rw [hquote, Quote.double, if_pos rfl, List.cons_append, List.cons_append, readEscaped,
            if_neg (by decide), if_pos rfl, if_pos rfl, ih value.length (by omega) value hvalue rfl]
          rfl
        · rw [Quote.double, if_neg hquote, List.cons_append, readEscaped_cons_ne c _ hescape hquote,
            ih value.length (by omega) value hvalue rfl]
          rfl

theorem readEscaped_escapeQuotedString_iff (value rest : Str) (hrest : rest.head? ≠ some '\'') :
    readEscaped (escapeQuotedString none value ++ '\'' :: rest) = some (value, rest) ↔
      LoneQuotesAndWildcards value := by
  have hlength := escapeQuotedString_length none value
  rw [LoneQuotesAndWildcards, ← lostBackslashes_eq_zero_iff]
  constructor
  · intro hread
    have hle := bodyLength_of_readEscaped _ _ _ hread
    rw [List.length_append, List.length_cons, bodyLength] at hle
    exact ⟨((printedOnce_eq_zero_iff none value).mp (by omega)).1.1, by omega⟩
  · intro h
    obtain ⟨hpair, hlost⟩ := h
    have hescaped : ¬ ['\\', '\''] <:+: value := by
      intro hgiven
      obtain ⟨before, after, heq⟩ := hgiven
      have hwild := (lostBackslashes_eq_zero_iff value).mp hlost before ('\'' :: after)
        (by rw [← heq, List.append_assoc]; rfl)
      simp at hwild
    rw [escapeQuotedString_of_loneQuotes value ⟨hpair, hescaped⟩]
    exact readEscaped_double value rest hlost hrest

/-- A printed literal, followed by anything but a quote, is read as the same value if
and only if the value prints faithfully. -/
theorem readLiteral_escapeQuotedString_iff (escapes : Bool) (value rest : Str)
    (hrest : rest.head? ≠ some '\'') :
    readLiteral escapes (escapeQuotedString none value ++ '\'' :: rest) = some (value, rest) ↔
      PrintsFaithfully escapes value := by
  cases escapes with
  | false => exact readQuoted_escapeQuotedString_iff value rest hrest
  | true => exact readEscaped_escapeQuotedString_iff value rest hrest

end FsspecDb.Sql
