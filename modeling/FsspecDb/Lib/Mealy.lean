import Mathlib.Data.List.Basic

/-!
# Deterministic machines with output

A step function reads one input and gives one output and the next state. The
rules: a run over a concatenation is the two runs in sequence, an invariant of
the step is an invariant of the run, and two machines related by a simulation
give the same outputs.
-/

namespace Mealy

variable {σ τ : Type*} {α β : Type*}

/-- Outputs in order and the state after the last input. -/
def run (f : σ → α → β × σ) (s : σ) : List α → List β × σ
  | [] => ([], s)
  | a :: as => ((f s a).1 :: (run f (f s a).2 as).1, (run f (f s a).2 as).2)

@[simp]
theorem run_nil (f : σ → α → β × σ) (s : σ) : run f s [] = ([], s) := rfl

theorem run_cons (f : σ → α → β × σ) (s : σ) (a : α) (as : List α) :
    run f s (a :: as) = ((f s a).1 :: (run f (f s a).2 as).1, (run f (f s a).2 as).2) := rfl

theorem run_append (f : σ → α → β × σ) (s : σ) (as bs : List α) :
    run f s (as ++ bs) =
      ((run f s as).1 ++ (run f (run f s as).2 bs).1, (run f (run f s as).2 bs).2) := by
  induction as generalizing s with
  | nil => rfl
  | cons a as ih => simp only [List.cons_append, run_cons, ih]

theorem run_invariant {f : σ → α → β × σ} {I : σ → Prop}
    (hstep : ∀ s a, I s → I (f s a).2) (s : σ) (as : List α) (hs : I s) :
    I (run f s as).2 := by
  induction as generalizing s with
  | nil => exact hs
  | cons a as ih => exact ih (f s a).2 (hstep s a hs)

/-- A relation that every step keeps, with equal outputs, makes the runs agree. -/
theorem run_simulation {f : σ → α → β × σ} {g : τ → α → β × τ} {R : σ → τ → Prop}
    (hstep : ∀ s t a, R s t → (f s a).1 = (g t a).1 ∧ R (f s a).2 (g t a).2)
    (s : σ) (t : τ) (as : List α) (h : R s t) :
    (run f s as).1 = (run g t as).1 ∧ R (run f s as).2 (run g t as).2 := by
  induction as generalizing s t with
  | nil => exact ⟨rfl, h⟩
  | cons a as ih =>
    obtain ⟨hout, hnext⟩ := hstep s t a h
    obtain ⟨houts, hlast⟩ := ih (f s a).2 (g t a).2 hnext
    exact ⟨by simp only [run_cons, hout, houts], hlast⟩

/-- The same with outputs that are related and not equal, for inputs of a kind. -/
theorem run_related {γ : Type*} {f : σ → α → β × σ} {g : τ → α → γ × τ} {R : σ → τ → Prop}
    {Q : β → γ → Prop} {P : α → Prop}
    (hstep : ∀ s t a, P a → R s t → Q (f s a).1 (g t a).1 ∧ R (f s a).2 (g t a).2)
    (s : σ) (t : τ) (as : List α) (has : ∀ a ∈ as, P a) (h : R s t) :
    List.Forall₂ Q (run f s as).1 (run g t as).1 ∧ R (run f s as).2 (run g t as).2 := by
  induction as generalizing s t with
  | nil => exact ⟨.nil, h⟩
  | cons a as ih =>
    obtain ⟨ha, has⟩ := List.forall_mem_cons.mp has
    obtain ⟨hout, hnext⟩ := hstep s t a ha h
    obtain ⟨houts, hlast⟩ := ih (f s a).2 (g t a).2 has hnext
    exact ⟨.cons hout houts, hlast⟩

/-- The same for inputs in an order: the relation may speak of the last input read. -/
theorem run_simulation_chain {f : σ → α → β × σ} {g : τ → α → β × τ} {r : α → α → Prop}
    {R : α → σ → τ → Prop}
    (hstep : ∀ a b s t, r a b → R a s t → (f s b).1 = (g t b).1 ∧ R b (f s b).2 (g t b).2)
    (a : α) (s : σ) (t : τ) (as : List α) (hchain : List.IsChain r (a :: as)) (h : R a s t) :
    (run f s as).1 = (run g t as).1 := by
  induction as generalizing a s t with
  | nil => rfl
  | cons b as ih =>
    obtain ⟨hab, hrest⟩ := List.isChain_cons_cons.mp hchain
    obtain ⟨hout, hnext⟩ := hstep a b s t hab h
    have houts := ih b (f s b).2 (g t b).2 hrest hnext
    simp only [run_cons, hout, houts]

end Mealy
