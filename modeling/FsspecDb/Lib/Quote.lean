import Mathlib.Data.List.Basic

/-!
# Quoting by doubling

A text between two quotes, in which each quote of the text is written twice, as in
SQL literals and identifiers and in CSV fields.
-/

namespace Quote

variable {α : Type*} [DecidableEq α]

def double (q : α) : List α → List α
  | [] => []
  | c :: text => if c = q then q :: q :: double q text else c :: double q text

/-- Reads up to the quote that closes, which is not followed by another one: the text
and what comes after. -/
def readQuoted (q : α) : List α → Option (List α × List α)
  | [] => none
  | [c] => if c = q then some ([], []) else none
  | c :: d :: input =>
    if c = q then
      if d = q then (readQuoted q input).map fun (text, rest) => (q :: text, rest)
      else some ([], d :: input)
    else (readQuoted q (d :: input)).map fun (text, rest) => (c :: text, rest)

theorem readQuoted_cons_ne {q c : α} (h : c ≠ q) (input : List α) :
    readQuoted q (c :: input) = (readQuoted q input).map fun (text, rest) => (c :: text, rest) := by
  cases input with
  | nil => simp [readQuoted, h]
  | cons d input => rw [readQuoted, if_neg h]

theorem readQuoted_doubled (q : α) (input : List α) :
    readQuoted q (q :: q :: input) =
      (readQuoted q input).map fun (text, rest) => (q :: text, rest) := by
  rw [readQuoted, if_pos rfl, if_pos rfl]

theorem readQuoted_closed {q : α} {rest : List α} (h : rest.head? ≠ some q) :
    readQuoted q (q :: rest) = some ([], rest) := by
  cases rest with
  | nil => simp [readQuoted]
  | cons d rest => rw [readQuoted, if_pos rfl, if_neg (by simpa using h)]

theorem readQuoted_double (q : α) (text rest : List α) (h : rest.head? ≠ some q) :
    readQuoted q (double q text ++ q :: rest) = some (text, rest) := by
  induction text with
  | nil => exact readQuoted_closed h
  | cons c text ih =>
    by_cases hc : c = q
    · rw [double, if_pos hc, List.cons_append, List.cons_append, readQuoted_doubled, ih, hc]
      rfl
    · rw [double, if_neg hc, List.cons_append, readQuoted_cons_ne hc, ih]
      rfl

/- Nothing but the doubled text and a quote is read as that text. -/
theorem eq_double_of_readQuoted (q : α) (input text rest : List α)
    (h : readQuoted q input = some (text, rest)) :
    input = double q text ++ q :: rest ∧ rest.head? ≠ some q := by
  fun_induction readQuoted q input generalizing text with
  | case1 => simp at h
  | case2 =>
    obtain ⟨rfl, rfl⟩ := Prod.mk.inj (Option.some.inj h)
    exact ⟨rfl, by simp⟩
  | case3 => simp at h
  | case4 input ih =>
    obtain ⟨⟨text', rest'⟩, hread, heq⟩ := Option.map_eq_some_iff.mp h
    obtain ⟨rfl, rfl⟩ := Prod.mk.inj heq
    obtain ⟨rfl, hrest⟩ := ih text' hread
    exact ⟨by simp [double], hrest⟩
  | case5 d input hd =>
    obtain ⟨rfl, rfl⟩ := Prod.mk.inj (Option.some.inj h)
    exact ⟨rfl, by simpa using hd⟩
  | case6 c d input hc ih =>
    obtain ⟨⟨text', rest'⟩, hread, heq⟩ := Option.map_eq_some_iff.mp h
    obtain ⟨rfl, rfl⟩ := Prod.mk.inj heq
    obtain ⟨hinput, hrest⟩ := ih text' hread
    rw [hinput]
    exact ⟨by simp [double, hc], hrest⟩

theorem readQuoted_eq_some_iff (q : α) (input text rest : List α) :
    readQuoted q input = some (text, rest) ↔
      input = double q text ++ q :: rest ∧ rest.head? ≠ some q := by
  constructor
  · exact eq_double_of_readQuoted q input text rest
  · intro hgiven
    obtain ⟨rfl, h⟩ := hgiven
    exact readQuoted_double q text rest h

end Quote
