import Mathlib.Data.List.Basic

/-!
# Texts with brackets

A text is cut at the first element that is wanted and stands outside all brackets.
-/

namespace Nesting

variable {α : Type*} (opens closes : α → Bool)

def depthAfter (depth : Nat) (a : α) : Nat :=
  if opens a then depth + 1 else if closes a then depth - 1 else depth

section
variable (wanted : α → Bool)

/-- What stands before the first wanted element outside brackets, and the rest. -/
def cut : Nat → List α → List α × List α
  | _, [] => ([], [])
  | depth, a :: text =>
    if depth = 0 ∧ wanted a then ([], a :: text)
    else (cut (depthAfter opens closes depth a) text).map (a :: ·) id

/-- Each bracket is closed, and no wanted element stands outside brackets. -/
def Whole : Nat → List α → Prop
  | depth, [] => depth = 0
  | depth, a :: text =>
    ¬ (depth = 0 ∧ wanted a) ∧ Whole (depthAfter opens closes depth a) text

instance decidableWhole : ∀ (depth : Nat) (text : List α),
    Decidable (Whole opens closes wanted depth text)
  | depth, [] => inferInstanceAs (Decidable (depth = 0))
  | depth, a :: text =>
    have := decidableWhole (depthAfter opens closes depth a) text
    inferInstanceAs (Decidable (_ ∧ _))

variable {opens closes wanted}

theorem Whole.append {depth : Nat} {text text' : List α}
    (h : Whole opens closes wanted depth text) (h' : Whole opens closes wanted 0 text') :
    Whole opens closes wanted depth (text ++ text') := by
  induction text generalizing depth with
  | nil =>
    have hdepth : depth = 0 := h
    subst hdepth
    exact h'
  | cons a text ih => exact ⟨h.1, ih h.2⟩

theorem Whole.imp {wanted' : α → Bool} (himp : ∀ a, wanted' a = true → wanted a = true)
    {depth : Nat} {text : List α} (h : Whole opens closes wanted depth text) :
    Whole opens closes wanted' depth text := by
  induction text generalizing depth with
  | nil => exact h
  | cons a text ih => exact ⟨fun hend => h.1 ⟨hend.1, himp a hend.2⟩, ih h.2⟩

theorem cut_append {depth : Nat} {text rest : List α}
    (h : Whole opens closes wanted depth text) (hrest : ∀ a ∈ rest.head?, wanted a = true) :
    cut opens closes wanted depth (text ++ rest) = (text, rest) := by
  induction text generalizing depth with
  | nil =>
    have hdepth : depth = 0 := h
    subst hdepth
    cases rest with
    | nil => rfl
    | cons a rest => exact if_pos ⟨rfl, hrest a rfl⟩
  | cons a text ih =>
    rw [List.cons_append, cut, if_neg h.1, ih h.2]
    rfl

end

end Nesting
