import FsspecDb.Lib.Grouping

/-!
# GROUP BY

The rows of a query by a key, each group in the order of its rows. Where the rows come from parts
with keys of their own, there is one group for each part.
-/

namespace Grouping

variable {κ ρ α β : Type*} [DecidableEq κ]

def groups (key : ρ → κ) (rows : List ρ) : List (κ × List ρ) :=
  group key (fun _ => []) (fun part row => part ++ [row]) rows

theorem collect_append (rows : List ρ) :
    collect (fun _ => ([] : List ρ)) (fun part row => part ++ [row]) rows =
      if rows = [] then none else some rows := by
  have hfold : ∀ (rows part : List ρ),
      rows.foldl (fun part row => part ++ [row]) part = part ++ rows := by
    intro rows
    induction rows with
    | nil => intro part; rw [List.append_nil]; rfl
    | cons row rows ih =>
      intro part
      rw [List.foldl_cons, ih, List.append_assoc, List.singleton_append]
  cases rows with
  | nil => rfl
  | cons row rows =>
    rw [if_neg (List.cons_ne_nil row rows), collect, List.head?_cons, Option.map_some, hfold,
      List.nil_append]

theorem groups_keys (key : ρ → κ) (rows : List ρ) : ((groups key rows).map Prod.fst).Nodup :=
  keys_group ..

theorem mem_groups (key : ρ → κ) (rows : List ρ) (k : κ) (part : List ρ) :
    (k, part) ∈ groups key rows ↔
      part ≠ [] ∧ part = rows.filter fun row => key row = k := by
  rw [groups, mem_group, collect_append]
  split
  · next hempty =>
    rw [hempty]
    constructor
    · intro h
      cases h
    · exact fun h => absurd h.2 h.1
  · next hne =>
    rw [Option.some.injEq]
    constructor
    · rintro rfl
      exact ⟨hne, rfl⟩
    · exact fun h => h.2.symm

theorem withPartners_one (a : α) (rows : List β) (h : rows.length ≤ 1) :
    withPartners a rows = [(a, rows.head?)] := by
  match rows, h with
  | [], _ => rfl
  | [b], _ => rfl

section
variable (parts : List α) (rowsOf : α → List ρ) (key : ρ → κ) (keyOf : α → κ)
  (hkeys : (parts.map keyOf).Nodup)
  (hrows : ∀ part ∈ parts, ∀ row ∈ rowsOf part, key row = keyOf part)
include hkeys hrows

/- The rows of a key are those of its part. -/
theorem filter_parts (part : α) (hpart : part ∈ parts) :
    (parts.flatMap rowsOf).filter (fun row => key row = keyOf part) = rowsOf part := by
  have hfilter (other : α) (hother : other ∈ parts) :
      (rowsOf other).filter (fun row => key row = keyOf part) =
        if keyOf other = keyOf part then rowsOf other else [] :=
    filter_const _ _ _ fun row hrow => by rw [hrows other hother row hrow]
  rw [List.filter_flatMap, flatMap_single parts (hkeys.of_map keyOf) _ part hpart,
    hfilter part hpart, if_pos rfl]
  intro other hother hne
  rw [hfilter other hother, if_neg]
  exact fun heq => hne (List.inj_on_of_nodup_map hkeys hother hpart heq)

/-- In whatever order the rows come, the groups are the parts. -/
theorem groups_perm (hne : ∀ part ∈ parts, rowsOf part ≠ []) (rows : List ρ)
    (hperm : rows.Perm (parts.flatMap rowsOf)) :
    (groups key rows).Perm
      (parts.map fun part => (keyOf part, rows.filter fun row => key row = keyOf part)) := by
  have hown (part : α) (hpart : part ∈ parts) :
      (rows.filter fun row => key row = keyOf part).Perm (rowsOf part) := by
    rw [← filter_parts parts rowsOf key keyOf hkeys hrows part hpart]
    exact hperm.filter _
  rw [List.perm_ext_iff_of_nodup]
  · intro entry
    rw [show entry = (entry.1, entry.2) from rfl, mem_groups, List.mem_map]
    constructor
    · intro h
      obtain ⟨row, hrow⟩ := List.exists_mem_of_ne_nil _ h.1
      rw [h.2, List.mem_filter, decide_eq_true_eq] at hrow
      obtain ⟨part, hpart, hmem⟩ := List.mem_flatMap.mp (hperm.mem_iff.mp hrow.1)
      have hkey : keyOf part = entry.1 := (hrows part hpart row hmem).symm.trans hrow.2
      exact ⟨part, hpart, by rw [hkey, ← h.2]⟩
    · intro h
      obtain ⟨part, hpart, heq⟩ := h
      obtain ⟨hkey, hrest⟩ := Prod.mk.inj heq
      rw [← hkey, ← hrest]
      exact ⟨fun hempty => hne part hpart (List.perm_nil.mp (hempty ▸ (hown part hpart).symm)), rfl⟩
  · exact (groups_keys key rows).of_map Prod.fst
  · apply List.Nodup.of_map Prod.fst
    rw [List.map_map]
    exact hkeys

/-- So what is computed from each group is what its part gives. -/
theorem groups_map_perm (hne : ∀ part ∈ parts, rowsOf part ≠ []) (rows : List ρ)
    (hperm : rows.Perm (parts.flatMap rowsOf)) (f : κ × List ρ → β) (g : α → β)
    (hfg : ∀ part ∈ parts, ∀ own, own.Perm (rowsOf part) → f (keyOf part, own) = g part) :
    ((groups key rows).map f).Perm (parts.map g) := by
  have hmap := (groups_perm parts rowsOf key keyOf hkeys hrows hne rows hperm).map f
  rw [List.map_map] at hmap
  have hparts : parts.map (f ∘ fun part =>
      (keyOf part, rows.filter fun row => key row = keyOf part)) = parts.map g := by
    apply List.map_congr_left
    intro part hpart
    apply hfg part hpart
    rw [← filter_parts parts rowsOf key keyOf hkeys hrows part hpart]
    exact hperm.filter _
  rwa [hparts] at hmap

end

end Grouping
