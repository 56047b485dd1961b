import Mathlib.Logic.Basic
import Mathlib.Data.List.Basic

/-!
# Labelled transition systems

Finite runs of a step relation, the rule that a property kept by every step is
kept by every run, and the runs all of whose steps meet a side condition.
-/

namespace Transition

variable {σ : Type*} {α : Type*}

abbrev System (σ : Type*) (α : Type*) := σ → α → σ → Prop

/-- A finite run, with the labels of its steps in order. -/
inductive Run (S : System σ α) : σ → List α → σ → Prop where
  | nil (s : σ) : Run S s [] s
  | cons {s t u : σ} {a : α} {as : List α} : S s a t → Run S t as u → Run S s (a :: as) u

def Reachable (S : System σ α) (s t : σ) : Prop := ∃ as, Run S s as t

theorem Run.single {S : System σ α} {s t : σ} {a : α} (h : S s a t) : Run S s [a] t :=
  .cons h (.nil t)

theorem Run.append {S : System σ α} {s t u : σ} {as bs : List α}
    (h : Run S s as t) (k : Run S t bs u) : Run S s (as ++ bs) u := by
  induction h with
  | nil => exact k
  | cons hstep _ ih => exact .cons hstep (ih k)

theorem Reachable.refl (S : System σ α) (s : σ) : Reachable S s s := ⟨[], .nil s⟩

theorem Reachable.trans {S : System σ α} {s t u : σ}
    (h : Reachable S s t) (k : Reachable S t u) : Reachable S s u := by
  obtain ⟨as, ha⟩ := h
  obtain ⟨bs, hb⟩ := k
  exact ⟨as ++ bs, ha.append hb⟩

theorem Reachable.head {S : System σ α} {s t u : σ} {a : α}
    (h : S s a t) (k : Reachable S t u) : Reachable S s u :=
  Reachable.trans ⟨[a], .single h⟩ k

theorem Run.invariant {S : System σ α} {I : σ → Prop}
    (hstep : ∀ s a t, S s a t → I s → I t) {s t : σ} {as : List α}
    (h : Run S s as t) (hs : I s) : I t := by
  induction h with
  | nil => exact hs
  | cons hfirst _ ih => exact ih (hstep _ _ _ hfirst hs)

theorem Reachable.invariant {S : System σ α} {I : σ → Prop}
    (hstep : ∀ s a t, S s a t → I s → I t) {s t : σ}
    (h : Reachable S s t) (hs : I s) : I t := by
  obtain ⟨as, hrun⟩ := h
  exact hrun.invariant hstep hs

/-- An invariant of states together with the labels that led to them. -/
theorem Run.history_invariant {S : System σ α} {I : List α → σ → Prop}
    (hstep : ∀ as s a t, S s a t → I as s → I (as ++ [a]) t) {s t : σ} {as : List α}
    (h : Run S s as t) (hs : I [] s) : I as t := by
  have hfrom (before : List α) (hI : I before s) : I (before ++ as) t := by
    clear hs
    induction h generalizing before with
    | nil => rwa [List.append_nil]
    | cons hfirst _ ih =>
      have hnext := ih _ (hstep _ _ _ _ hfirst hI)
      rwa [List.append_assoc, List.singleton_append] at hnext
  exact hfrom [] hs

/-- The steps of `S` whose state before and label meet `C`. -/
def restrict (S : System σ α) (C : σ → α → Prop) : System σ α :=
  fun s a t => S s a t ∧ C s a

theorem Reachable.of_restrict {S : System σ α} {C : σ → α → Prop} {s t : σ}
    (h : Reachable (restrict S C) s t) : Reachable S s t := by
  obtain ⟨as, hrun⟩ := h
  refine ⟨as, ?_⟩
  induction hrun with
  | nil s => exact .nil s
  | cons hstep _ ih => exact .cons hstep.1 ih

end Transition
