import Mathlib.Data.List.Forall2
import Mathlib.Data.List.Nodup
import Mathlib.Data.Option.Basic

/-!
# Lists with distinct keys

A lookup by the key of an element finds the element, in whatever order the elements stand.
-/

namespace Keyed

variable {α κ : Type*} [DecidableEq κ]

theorem find_key (items : List α) (key : α → κ) (hkeys : (items.map key).Nodup)
    (x : α) (hx : x ∈ items) (p : α → Bool) (hp : ∀ y ∈ items, p y = decide (key y = key x)) :
    items.find? p = some x := by
  induction items with
  | nil => simp at hx
  | cons y items ih =>
    rw [List.map_cons, List.nodup_cons] at hkeys
    have hhead := hp y (by simp)
    rcases List.mem_cons.mp hx with rfl | hx
    · rw [List.find?_cons_of_pos (by simp [hhead])]
    · have hne : key y ≠ key x := fun heq => hkeys.1 (heq ▸ List.mem_map_of_mem hx)
      rw [List.find?_cons_of_neg (by simp [hhead, hne])]
      exact ih hkeys.2 hx fun z hz => hp z (by simp [hz])

/-- The order of the elements does not matter for a lookup. -/
theorem find_perm (items items' : List α) (key : α → κ) (hperm : items.Perm items')
    (hkeys : (items.map key).Nodup) (k : κ) :
    items.find? (fun x => key x = k) = items'.find? (fun x => key x = k) := by
  have hkeys' := (hperm.map key).nodup_iff.mp hkeys
  cases hfind : items.find? (fun x => key x = k) with
  | none =>
    rw [List.find?_eq_none] at hfind
    exact (List.find?_eq_none.mpr fun x hx => hfind x (hperm.mem_iff.mpr hx)).symm
  | some x =>
    have hx := List.mem_of_find?_eq_some hfind
    have hkey : key x = k := by simpa using List.find?_some hfind
    subst hkey
    exact (find_key items' key hkeys' x (hperm.mem_iff.mp hx) _ fun y _ => rfl).symm

omit [DecidableEq κ] in
/-- Lists that are put together from parts, each with a key of its own. -/
theorem nodup_flatMap {β : Type*} (items : List α) (part : α → List β) (key : α → κ)
    (keyOf : β → κ) (hkeys : (items.map key).Nodup) (hparts : ∀ x ∈ items, (part x).Nodup)
    (hkey : ∀ x ∈ items, ∀ b ∈ part x, keyOf b = key x) : (items.flatMap part).Nodup := by
  induction items with
  | nil => exact List.nodup_nil
  | cons x items ih =>
    rw [List.map_cons, List.nodup_cons] at hkeys
    rw [List.flatMap_cons, List.nodup_append]
    refine ⟨hparts x (by simp), ih hkeys.2 (fun y hy => hparts y (by simp [hy]))
      fun y hy => hkey y (by simp [hy]), ?_⟩
    intro b hb c hc heq
    obtain ⟨y, hy, hc⟩ := List.mem_flatMap.mp hc
    have hsame : key x = key y := by
      rw [← hkey x (by simp) b hb, ← hkey y (by simp [hy]) c hc, heq]
    exact hkeys.1 (hsame ▸ List.mem_map_of_mem hy)

/-- Lists that are alike element by element, keys included: the first element of a key here is
like the last one there. -/
theorem find_related {β : Type*} {R : α → β → Prop} {xs : List α} {ys : List β} (key : α → κ)
    (key' : β → κ) (h : List.Forall₂ R xs ys) (hkey : ∀ x y, R x y → key x = key' y)
    (hkeys : (ys.map key').Nodup) (k : κ) :
    Option.Rel R (xs.find? fun x => key x = k) (ys.reverse.find? fun y => key' y = k) := by
  rw [find_perm ys.reverse ys key' (List.reverse_perm ys)
    (by rwa [List.map_reverse, List.nodup_reverse])]
  clear hkeys
  induction h with
  | nil => exact .none
  | @cons x y xs ys hhead _ ih =>
    by_cases hx : key x = k
    · rw [List.find?_cons_of_pos (by simpa using hx),
        List.find?_cons_of_pos (by simpa using (hkey x y hhead) ▸ hx)]
      exact .some hhead
    · rw [List.find?_cons_of_neg (by simpa using hx),
        List.find?_cons_of_neg (by simpa using (hkey x y hhead) ▸ hx)]
      exact ih

end Keyed
