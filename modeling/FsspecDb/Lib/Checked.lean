import Mathlib.Data.List.Perm.Basic

/-!
# Computations that may fail

What it means that a sequence of `Except` steps succeeded.
-/

namespace Checked

variable {ε : Type*} {α β : Type}

theorem bind_eq_ok_iff {x : Except ε α} {f : α → Except ε β} {b : β} :
    x >>= f = .ok b ↔ ∃ a, x = .ok a ∧ f a = .ok b := by
  cases x with
  | error err => simp [bind, Except.bind]
  | ok a => simp [bind, Except.bind]

theorem bind_eq_error_iff {x : Except ε α} {f : α → Except ε β} {err : ε} :
    x >>= f = .error err ↔ x = .error err ∨ ∃ a, x = .ok a ∧ f a = .error err := by
  cases x with
  | error first => simp [bind, Except.bind]
  | ok a => simp [bind, Except.bind]

theorem exists_bind_eq_error {x : Except ε α} {f : α → Except ε β} {a : α} (hx : x = .ok a)
    (h : ∃ err, f a = .error err) : ∃ err, x >>= f = .error err := by
  obtain ⟨err, hf⟩ := h
  exact ⟨err, bind_eq_error_iff.mpr (.inr ⟨a, hx, hf⟩)⟩

/- Computations that fail alike succeed alike. -/
theorem exists_ok_iff_of_error {x : Except ε α} {y : Except ε β}
    (h : ∀ err, x = .error err ↔ y = .error err) : (∃ a, x = .ok a) ↔ ∃ b, y = .ok b := by
  cases x with
  | error err =>
    rw [(h err).mp rfl]
    simp
  | ok a =>
    cases y with
    | error err => exact absurd ((h err).mpr rfl) (by simp)
    | ok b => simp

theorem map_eq_ok_iff {x : Except ε α} {f : α → β} {b : β} :
    x.map f = .ok b ↔ ∃ a, x = .ok a ∧ f a = b := by
  cases x with
  | error err => simp [Except.map]
  | ok a => simp [Except.map]

theorem map_eq_error_iff {x : Except ε α} {f : α → β} {err : ε} :
    x.map f = .error err ↔ x = .error err := by
  cases x with
  | error first => simp [Except.map]
  | ok a => simp [Except.map]

theorem mapM_eq_ok_iff {f : α → Except ε β} {xs : List α} {ys : List β} :
    xs.mapM f = .ok ys ↔ List.Forall₂ (fun x y => f x = .ok y) xs ys := by
  induction xs generalizing ys with
  | nil =>
    rw [List.mapM_nil, List.forall₂_nil_left_iff]
    exact ⟨fun h => (Except.ok.inj h).symm, fun h => by rw [h]; rfl⟩
  | cons x xs ih =>
    rw [List.mapM_cons, bind_eq_ok_iff, List.forall₂_cons_left_iff]
    constructor
    · intro hgiven
      obtain ⟨y, hy, hrest⟩ := hgiven
      obtain ⟨ys', hys, heq⟩ := bind_eq_ok_iff.mp hrest
      exact ⟨y, ys', hy, ih.mp hys, (Except.ok.inj heq).symm⟩
    · intro hall
      obtain ⟨y, ys', hy, hys, rfl⟩ := hall
      exact ⟨y, hy, bind_eq_ok_iff.mpr ⟨ys', ih.mpr hys, rfl⟩⟩

theorem exists_bind_eq_ok_iff {x : Except ε α} {f : α → Except ε β} :
    (∃ b, x >>= f = .ok b) ↔ ∃ a, x = .ok a ∧ ∃ b, f a = .ok b := by
  cases x with
  | error err => simp [bind, Except.bind]
  | ok a => simp [bind, Except.bind]

/- Two steps of which neither needs the result of the other. -/
theorem exists_bind_bind_ok_iff {γ : Type} {x : Except ε α} {y : Except ε β} {f : α → β → γ} :
    (∃ c, (x >>= fun a => y >>= fun b => .ok (f a b)) = .ok c) ↔
      (∃ a, x = .ok a) ∧ ∃ b, y = .ok b := by
  cases x with
  | error err => simp [bind, Except.bind]
  | ok a => cases y <;> simp [bind, Except.bind]

theorem exists_mapM_eq_ok_iff {f : α → Except ε β} {xs : List α} :
    (∃ ys, xs.mapM f = .ok ys) ↔ ∀ x ∈ xs, ∃ y, f x = .ok y := by
  induction xs with
  | nil => simp [List.mapM_nil, pure, Except.pure]
  | cons x xs ih =>
    rw [List.mapM_cons, exists_bind_eq_ok_iff, List.forall_mem_cons, ← ih]
    constructor
    · intro h
      obtain ⟨y, hy, hrest⟩ := h
      obtain ⟨ys, hys, _⟩ := exists_bind_eq_ok_iff.mp hrest
      exact ⟨⟨y, hy⟩, ys, hys⟩
    · intro hgiven
      obtain ⟨⟨y, hy⟩, ys, hys⟩ := hgiven
      exact ⟨y, hy, exists_bind_eq_ok_iff.mpr ⟨ys, hys, _, rfl⟩⟩

/-- In another order the same elements have the same results. -/
theorem mapM_perm {f : α → Except ε β} {xs xs' : List α} (hperm : xs.Perm xs') {ys : List β}
    (h : xs.mapM f = .ok ys) :
    ∃ ys', xs'.mapM f = .ok ys' ∧ (xs.zip ys).Perm (xs'.zip ys') := by
  have hresults : List.Forall₂ (fun x p => p.1 = x ∧ f x = .ok p.2) xs (xs.zip ys) := by
    rw [mapM_eq_ok_iff] at h
    clear hperm
    induction h with
    | nil => exact .nil
    | cons hhead _ ih => exact .cons ⟨rfl, hhead⟩ ih
  obtain ⟨pairs, hpairs, hsame⟩ := List.perm_comp_forall₂ hperm.symm hresults
  have hshape : xs'.zip (pairs.map Prod.snd) = pairs := by
    clear hsame hperm
    induction hpairs with
    | nil => rfl
    | cons hhead _ ih => rw [List.map_cons, List.zip_cons_cons, ih, ← hhead.1]
  refine ⟨pairs.map Prod.snd, ?_, by rw [hshape]; exact hsame.symm⟩
  rw [mapM_eq_ok_iff, List.forall₂_map_right_iff]
  exact hpairs.imp fun _ _ hpair => hpair.2

theorem mapM_eq_some_iff {f : α → Option β} {xs : List α} {ys : List β} :
    xs.mapM f = some ys ↔ List.Forall₂ (fun x y => f x = some y) xs ys := by
  induction xs generalizing ys with
  | nil =>
    rw [List.mapM_nil, List.forall₂_nil_left_iff]
    exact ⟨fun h => (Option.some.inj h).symm, fun h => by rw [h]; rfl⟩
  | cons x xs ih =>
    rw [List.mapM_cons, Option.bind_eq_bind, Option.bind_eq_some_iff, List.forall₂_cons_left_iff]
    constructor
    · intro hgiven
      obtain ⟨y, hy, hrest⟩ := hgiven
      obtain ⟨ys', hys, heq⟩ := Option.bind_eq_some_iff.mp hrest
      exact ⟨y, ys', hy, ih.mp hys, (Option.some.inj heq).symm⟩
    · intro hall
      obtain ⟨y, ys', hy, hys, rfl⟩ := hall
      exact ⟨y, hy, Option.bind_eq_some_iff.mpr ⟨ys', ih.mpr hys, rfl⟩⟩

/- Two functions with the same results on a list agree on its elements. -/
theorem mapM_eq_some_congr {f g : α → Option β} {xs : List α} {ys : List β}
    (h : xs.mapM f = some ys) : xs.mapM g = some ys ↔ ∀ x ∈ xs, g x = f x := by
  rw [mapM_eq_some_iff] at h ⊢
  induction h with
  | nil => simp
  | cons hhead _ ih => rw [List.forall₂_cons, List.forall_mem_cons, ih, hhead]

/-! ### Two computations step by step -/

/-- Both fail, with errors in `E`, or both succeed, with results in `R`. -/
inductive Related {ε' : Type*} (E : ε → ε' → Prop) (R : α → β → Prop) :
    Except ε α → Except ε' β → Prop where
  | error (err : ε) (err' : ε') (h : E err err') : Related E R (.error err) (.error err')
  | ok (a : α) (b : β) (h : R a b) : Related E R (.ok a) (.ok b)

namespace Related

variable {ε' : Type*} {α' β' : Type} {E : ε → ε' → Prop} {R : α → β → Prop} {S : α' → β' → Prop}
  {x : Except ε α} {y : Except ε' β}

theorem bind {f : α → Except ε α'} {g : β → Except ε' β'} (h : Related E R x y)
    (hstep : ∀ a b, x = .ok a → y = .ok b → R a b → Related E S (f a) (g b)) :
    Related E S (x >>= f) (y >>= g) := by
  cases h with
  | error err err' h => exact .error err err' h
  | ok a b h => exact hstep a b rfl rfl h

/- The same step in front of both. -/
theorem map {f : α → α'} {g : β → β'} (h : Related E R x y)
    (hresult : ∀ a b, x = .ok a → y = .ok b → R a b → S (f a) (g b)) :
    Related E S (x >>= fun a => .ok (f a)) (y >>= fun b => .ok (g b)) :=
  h.bind fun a b ha hb hab => .ok _ _ (hresult a b ha hb hab)

/- One of the two in another form. -/
theorem mapError_left {ε₁ : Type*} {E' : ε₁ → ε' → Prop} (h : Related E R x y) (f : ε → ε₁)
    (herror : ∀ err err', E err err' → E' (f err) err') : Related E' R (x.mapError f) y := by
  cases h with
  | error err err' h => exact .error _ _ (herror err err' h)
  | ok a b h => exact .ok a b h

theorem map_left {R' : α' → β → Prop} (h : Related E R x y) (f : α → α')
    (hresult : ∀ a b, R a b → R' (f a) b) : Related E R' (x.map f) y := by
  cases h with
  | error err err' h => exact .error err err' h
  | ok a b h => exact .ok _ _ (hresult a b h)

theorem of_mapError {ε₀ : Type*} (z : Except ε₀ α) (f : ε₀ → ε) (g : ε₀ → ε')
    (h : ∀ err, E (f err) (g err)) :
    Related E (fun a b => a = b) (z.mapError f) (z.mapError g) := by
  cases z with
  | error err => exact .error _ _ (h err)
  | ok a => exact .ok a a rfl

end Related

end Checked
