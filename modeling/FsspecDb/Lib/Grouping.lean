import Mathlib.Data.List.Induction
import Mathlib.Data.List.Nodup
import Mathlib.Data.List.Perm.Basic

/-!
# Rows grouped by a key

`put` changes the entry of a map at a key and makes it first where there is none; `group` folds
it over rows. What stands under a key is what its own rows alone give.
-/

namespace Grouping

variable {κ ρ α β : Type*}

section Maps

variable [DecidableEq κ]

def put (k : κ) (fresh : β) (f : β → β) : List (κ × β) → List (κ × β)
  | [] => [(k, f fresh)]
  | entry :: entries =>
    if entry.1 = k then (k, f entry.2) :: entries else entry :: put k fresh f entries

def group (key : ρ → κ) (fresh : ρ → β) (add : β → ρ → β) (rows : List ρ) : List (κ × β) :=
  rows.foldl (fun entries row => put (key row) (fresh row) (add · row) entries) []

/- The value that the rows of one key give. -/
def collect (fresh : ρ → β) (add : β → ρ → β) (rows : List ρ) : Option β :=
  rows.head?.map fun row => rows.foldl add (fresh row)

theorem lookup_cons (k k₀ : κ) (b : β) (entries : List (κ × β)) :
    ((k₀, b) :: entries).lookup k = if k = k₀ then some b else entries.lookup k := by
  rw [List.lookup_cons]
  split
  · rename_i heq
    rw [if_pos (beq_iff_eq.mp heq)]
  · rename_i hne
    rw [if_neg (beq_eq_false_iff_ne.mp hne)]

theorem lookup_put (k k' : κ) (fresh : β) (f : β → β) (entries : List (κ × β)) :
    (put k fresh f entries).lookup k' =
      if k' = k then some (f ((entries.lookup k).getD fresh)) else entries.lookup k' := by
  induction entries with
  | nil => simp [put, lookup_cons]
  | cons entry entries ih =>
    obtain ⟨k₀, b⟩ := entry
    rcases eq_or_ne k₀ k with rfl | hne
    · by_cases h : k' = k₀ <;> simp [put, lookup_cons, h]
    · rcases eq_or_ne k' k₀ with rfl | hne'
      · simp [put, hne]
      · simp [put, lookup_cons, hne, hne', hne.symm, ih]

theorem keys_put (k : κ) (fresh : β) (f : β → β) (entries : List (κ × β)) :
    (put k fresh f entries).map Prod.fst =
      if k ∈ entries.map Prod.fst then entries.map Prod.fst else entries.map Prod.fst ++ [k] := by
  induction entries with
  | nil => simp [put]
  | cons entry entries ih =>
    rcases eq_or_ne entry.1 k with rfl | hne
    · simp [put]
    · simp only [put, hne, if_false, List.map_cons, ih, List.mem_cons, hne.symm, false_or]
      split <;> rfl

theorem keys_group (key : ρ → κ) (fresh : ρ → β) (add : β → ρ → β) (rows : List ρ) :
    ((group key fresh add rows).map Prod.fst).Nodup := by
  induction rows using List.reverseRecOn with
  | nil => simp [group]
  | append_singleton rows row ih =>
    simp only [group, List.foldl_append, List.foldl_cons, List.foldl_nil, keys_put]
    split
    · exact ih
    · rename_i hnew
      exact List.nodup_append.mpr ⟨ih, List.nodup_singleton _, fun k hk k' hk' heq =>
        hnew (by rw [← List.mem_singleton.mp hk', ← heq]; exact hk)⟩

theorem collect_snoc (fresh : ρ → β) (add : β → ρ → β) (rows : List ρ) (row : ρ) :
    collect fresh add (rows ++ [row]) =
      some (add ((collect fresh add rows).getD (fresh row)) row) := by
  cases rows <;> simp [collect]

theorem lookup_group (key : ρ → κ) (fresh : ρ → β) (add : β → ρ → β) (rows : List ρ) (k : κ) :
    (group key fresh add rows).lookup k =
      collect fresh add (rows.filter fun row => key row = k) := by
  induction rows using List.reverseRecOn with
  | nil => rfl
  | append_singleton rows row ih =>
    have hstep : group key fresh add (rows ++ [row]) =
        put (key row) (fresh row) (add · row) (group key fresh add rows) := by
      simp [group]
    rw [hstep, lookup_put, List.filter_append]
    rcases eq_or_ne (key row) k with rfl | hne
    · simp [collect_snoc, ih]
    · simp [hne, hne.symm, ih]

theorem mem_iff_lookup (entries : List (κ × β)) (hkeys : (entries.map Prod.fst).Nodup)
    (k : κ) (b : β) : (k, b) ∈ entries ↔ entries.lookup k = some b := by
  induction entries with
  | nil => simp
  | cons entry entries ih =>
    obtain ⟨k₀, b₀⟩ := entry
    rw [List.map_cons, List.nodup_cons] at hkeys
    have ih := ih hkeys.2
    rcases eq_or_ne k k₀ with rfl | hne
    · have hnew : (k, b) ∉ entries := fun hmem => hkeys.1 (List.mem_map.mpr ⟨_, hmem, rfl⟩)
      simp [hnew, eq_comm]
    · simp [lookup_cons, hne, ih]

theorem mem_group (key : ρ → κ) (fresh : ρ → β) (add : β → ρ → β) (rows : List ρ)
    (k : κ) (b : β) :
    (k, b) ∈ group key fresh add rows ↔
      collect fresh add (rows.filter fun row => key row = k) = some b := by
  rw [mem_iff_lookup _ (keys_group key fresh add rows), lookup_group]

end Maps

/-- A condition that is the same for all elements keeps all or none. -/
theorem filter_const (items : List α) (p : α → Bool) (q : Prop) [Decidable q]
    (h : ∀ x ∈ items, p x = decide q) : items.filter p = if q then items else [] := by
  split
  · rename_i hq
    exact List.filter_eq_self.mpr fun x hx => by rw [h x hx, decide_eq_true hq]
  · rename_i hq
    exact List.filter_eq_nil_iff.mpr fun x hx => by rwa [h x hx, decide_eq_true_eq]

/-! ### A left join keeps the rows without a partner -/

section Joins

def withPartners (a : α) : List β → List (α × Option β)
  | [] => [(a, none)]
  | row :: rows => (row :: rows).map fun b => (a, some b)

def leftJoin (on : α → β → Bool) (left : List α) (right : List β) : List (α × Option β) :=
  left.flatMap fun a => withPartners a (right.filter (on a))

theorem withPartners_fst (a : α) (rows : List β) (row : α × Option β)
    (h : row ∈ withPartners a rows) : row.1 = a := by
  cases rows with
  | nil => simp_all [withPartners]
  | cons b rows =>
    obtain ⟨_, _, rfl⟩ := List.mem_map.mp h
    rfl

theorem withPartners_ne (a : α) (rows : List β) : withPartners a rows ≠ [] := by
  cases rows <;> simp [withPartners]

theorem withPartners_snd (a : α) (rows : List β) :
    (withPartners a rows).filterMap Prod.snd = rows := by
  cases rows with
  | nil => rfl
  | cons b rows => simp [withPartners, List.filterMap_map]

/-- A condition on the left rows alone can be checked before the join. -/
theorem leftJoin_filter (on : α → β → Bool) (p : α → Bool) (left : List α) (right : List β) :
    (leftJoin on left right).filter (fun row => p row.1) = leftJoin on (left.filter p) right := by
  induction left with
  | nil => rfl
  | cons a left ih =>
    have hhead : (withPartners a (right.filter (on a))).filter (fun row => p row.1) =
        if p a then withPartners a (right.filter (on a)) else [] :=
      filter_const _ _ (p a = true) fun row hrow => by
        rw [withPartners_fst a _ row hrow, Bool.decide_eq_true]
    rw [leftJoin, List.flatMap_cons, List.filter_append, hhead, ← leftJoin, ih, List.filter_cons]
    split <;> rfl

end Joins

/-! ### Where one element gives all, and the order of distinct keys -/

theorem flatMap_single (items : List α) (hitems : items.Nodup) (f : α → List β) (x : α)
    (hx : x ∈ items) (hrest : ∀ y ∈ items, y ≠ x → f y = []) : items.flatMap f = f x := by
  obtain ⟨before, after, rfl⟩ := List.append_of_mem hx
  rw [List.nodup_middle, List.nodup_cons, List.mem_append, not_or] at hitems
  obtain ⟨⟨hbefore, hafter⟩, -⟩ := hitems
  have hleft : before.flatMap f = [] := List.flatMap_eq_nil_iff.mpr fun y hy =>
    hrest y (by simp [hy]) fun heq => hbefore (heq ▸ hy)
  have hright : after.flatMap f = [] := List.flatMap_eq_nil_iff.mpr fun y hy =>
    hrest y (by simp [hy]) fun heq => hafter (heq ▸ hy)
  rw [List.flatMap_append, List.flatMap_cons, hleft, hright, List.nil_append, List.append_nil]

theorem length_flatMap_pair (items : List α) (f : α → List β) (x y : α) (hx : x ∈ items)
    (hy : y ∈ items) (hne : x ≠ y) :
    (f x).length + (f y).length ≤ (items.flatMap f).length := by
  classical
  have hy' : y ∈ items.erase x := (List.mem_erase_of_ne hne.symm).mpr hy
  have hperm : items.Perm (x :: y :: (items.erase x).erase y) :=
    (List.perm_cons_erase hx).trans ((List.perm_cons_erase hy').cons x)
  rw [(hperm.flatMap_right f).length_eq]
  simp only [List.flatMap_cons, List.length_append]
  omega

/-- There is one way to put elements with distinct keys in the order of their keys. -/
theorem sorted_unique (key : α → Nat) (items items' : List α) (hperm : items.Perm items')
    (hsorted : items.Pairwise fun x y => key x ≤ key y)
    (hstrict : items'.Pairwise fun x y => key x < key y) : items = items' := by
  have hkeys : (items'.map key).Nodup := List.pairwise_map.mpr (hstrict.imp Nat.ne_of_lt)
  have hle : items'.Pairwise fun x y => key x ≤ key y := hstrict.imp Nat.le_of_lt
  refine hperm.eq_of_pairwise (fun x y hx hy hxy hyx => ?_) hsorted hle
  exact List.inj_on_of_nodup_map hkeys (hperm.mem_iff.mp hx) hy (Nat.le_antisymm hxy hyx)

/- Elements that carry their place are in the order of their places. -/
theorem zipIdx_strict (items : List α) (start : Nat) (f : α × Nat → β) (key : β → Nat)
    (h : ∀ entry, key (f entry) = entry.2) :
    ((items.zipIdx start).map f).Pairwise fun x y => key x < key y := by
  rw [List.pairwise_map, List.pairwise_iff_getElem]
  intro i j hi hj hij
  simp only [h, List.getElem_zipIdx]
  omega

theorem mergeSort_sorted (key : α → Nat) (items : List α) :
    (items.mergeSort fun x y => key x ≤ key y).Pairwise fun x y => key x ≤ key y := by
  have htrans : ∀ x y z : α, decide (key x ≤ key y) = true → decide (key y ≤ key z) = true →
      decide (key x ≤ key z) = true := by
    intro x y z hxy hyz
    exact decide_eq_true (Nat.le_trans (of_decide_eq_true hxy) (of_decide_eq_true hyz))
  have htotal : ∀ x y : α, (decide (key x ≤ key y) || decide (key y ≤ key x)) = true := by
    intro x y
    rw [Bool.or_eq_true, decide_eq_true_eq, decide_eq_true_eq]
    exact Nat.le_total (key x) (key y)
  exact (List.pairwise_mergeSort htrans htotal items).imp of_decide_eq_true

/-- A sort of elements whose keys are distinct gives the one order there is. -/
theorem mergeSort_eq (key : α → Nat) (items items' : List α)
    (hperm : items.Perm items') (hstrict : items'.Pairwise fun x y => key x < key y) :
    (items.mergeSort fun x y => key x ≤ key y) = items' :=
  sorted_unique key _ items' ((List.mergeSort_perm _ _).trans hperm) (mergeSort_sorted key items)
    hstrict

end Grouping
