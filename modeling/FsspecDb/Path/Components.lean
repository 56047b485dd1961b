import FsspecDb.Path

/-!
# Paths made of components

What the steps of `DbPath::parse` do to a path in which every component stands behind
one slash.
-/

namespace FsspecDb
open Text

/-- The components behind one slash each. -/
def slashed (parts : List Str) : Str := parts.flatMap fun part => '/' :: part

/-- A text that can be a component. -/
def Component (part : Str) : Prop := part ≠ [] ∧ '/' ∉ part

instance (part : Str) : Decidable (Component part) := inferInstanceAs (Decidable (_ ∧ _))

/-- Whitespace at the end, which `trim` takes off. -/
def EndsBlank (s : Str) : Prop := s.getLast?.any isWhitespace = true

instance (s : Str) : Decidable (EndsBlank s) := inferInstanceAs (Decidable (_ = _))

theorem slashed_cons (part : Str) (parts : List Str) :
    slashed (part :: parts) = '/' :: part ++ slashed parts := rfl

theorem slashed_ne_nil (parts : List Str) (hne : parts ≠ []) : slashed parts ≠ [] := by
  cases parts with
  | nil => exact absurd rfl hne
  | cons part parts => simp [slashed_cons]

theorem splitOn_append_slashed (part : Str) (parts : List Str) (hpart : '/' ∉ part)
    (hparts : ∀ other ∈ parts, Component other) :
    (part ++ slashed parts).splitOn '/' = part :: parts := by
  induction parts generalizing part with
  | nil =>
    rw [slashed, List.flatMap_nil, List.append_nil]
    exact List.splitOn_eq_singleton hpart
  | cons next parts ih =>
    have hnext := hparts next (by simp)
    rw [slashed_cons, List.cons_append, List.splitOn_append_cons_self_of_not_mem hpart,
      ih next hnext.2 fun other hother => hparts other (by simp [hother])]

theorem stripProtocol_unchanged (path : Str) (h : ¬ "://".toList <:+: path) :
    stripProtocol path = path := by
  rw [stripProtocol, (splitOnce_eq_none_iff _ _ (by decide)).mpr h]

theorem endsBlank_append (s t : Str) (hne : t ≠ []) : EndsBlank (s ++ t) ↔ EndsBlank t := by
  rw [EndsBlank, EndsBlank, List.getLast?_append_of_ne_nil s hne]

section
variable (parts : List Str) (hparts : ∀ part ∈ parts, Component part)
include hparts

/- No two slashes stand side by side. -/
theorem slashed_isChain : (slashed parts).IsChain fun c d => ¬ (c = '/' ∧ d = '/') := by
  induction parts with
  | nil => exact .nil
  | cons part parts ih =>
    obtain ⟨hne, hslash⟩ := hparts part (by simp)
    have hnot : ∀ c ∈ part, c ≠ '/' := fun c hc heq => hslash (heq ▸ hc)
    have hpart : part.IsChain fun c d => ¬ (c = '/' ∧ d = '/') := by
      clear hne ih hparts hslash
      induction part with
      | nil => exact .nil
      | cons c part ih =>
        refine List.isChain_cons.mpr ⟨fun d _ h => hnot c (by simp) h.1, ?_⟩
        exact ih fun d hd => hnot d (by simp [hd])
    rw [slashed_cons]
    refine List.isChain_append.mpr ⟨List.isChain_cons.mpr ⟨fun d hd h => ?_, hpart⟩,
      ih fun other hother => hparts other (by simp [hother]), fun c hc d _ h => ?_⟩
    · exact hnot d (List.mem_of_mem_head? hd) h.2
    · rw [List.getLast?_cons_of_ne_nil hne] at hc
      exact hnot c (List.mem_of_mem_getLast? hc) h.1

theorem protocol_not_infix_slashed : ¬ "://".toList <:+: slashed parts := by
  intro h
  have hchain := List.IsChain.infix (slashed_isChain parts hparts) h
  simp at hchain

theorem stripProtocol_slashed : stripProtocol (slashed parts) = slashed parts :=
  stripProtocol_unchanged _ (protocol_not_infix_slashed parts hparts)

theorem splitOn_slashed : (slashed parts).splitOn '/' = [] :: parts :=
  splitOn_append_slashed [] parts (by simp) hparts

theorem join_components (hne : parts ≠ []) : '/' :: join ['/'] parts = slashed parts := by
  have h := congrArg (List.intercalate ['/']) (splitOn_slashed parts hparts)
  rw [List.intercalate_splitOn] at h
  rw [h]
  cases parts with
  | nil => exact absurd rfl hne
  | cons part parts => simp [join, List.intercalate]

theorem trim_slashed (hblank : ¬ EndsBlank (slashed parts)) :
    trim (slashed parts) = slashed parts := by
  have hstart : (slashed parts).dropWhile isWhitespace = slashed parts := by
    cases parts with
    | nil => rfl
    | cons part parts =>
      rw [slashed_cons, List.cons_append, List.dropWhile_cons_of_neg (by decide)]
  rw [trim, hstart, List.rdropWhile_eq_self_iff]
  intro hne hlast
  rw [EndsBlank, List.getLast?_eq_some_getLast hne] at hblank
  exact hblank hlast

theorem trimStart_slashed (part : Str) (rest : List Str) (h : parts = part :: rest) :
    trimStartMatches (slashed parts) '/' = part ++ slashed rest := by
  subst h
  obtain ⟨hpart, hslash⟩ := hparts part (by simp)
  rw [trimStartMatches, slashed_cons, List.cons_append, List.dropWhile_cons_of_pos (by simp)]
  exact dropWhile_append_eq _ _ _ hpart fun c hc => by
    simpa using fun heq : c = '/' => hslash (heq ▸ hc)

theorem splitOn_trimStart_slashed (hne : parts ≠ []) :
    (trimStartMatches (slashed parts) '/').splitOn '/' = parts := by
  cases hcons : parts with
  | nil => exact absurd hcons hne
  | cons part rest =>
    rw [← hcons, trimStart_slashed parts hparts part rest hcons, hcons]
    exact splitOn_append_slashed part rest (hparts part (by simp [hcons])).2 fun other hother =>
      hparts other (by simp [hcons, hother])

theorem getLast_slashed_ne (hne : slashed parts ≠ []) : (slashed parts).getLast hne ≠ '/' := by
  induction parts with
  | nil => exact absurd rfl hne
  | cons part rest ih =>
    obtain ⟨hpart, hslash⟩ := hparts part (by simp)
    cases rest with
    | nil =>
      have hlast : (slashed [part]).getLast hne = part.getLast hpart := by
        simp [slashed, List.getLast_cons hpart]
      rw [hlast]
      exact fun heq => hslash (heq ▸ List.getLast_mem hpart)
    | cons next rest =>
      have htail : slashed (next :: rest) ≠ [] := by simp [slashed_cons]
      have hlast : (slashed (part :: next :: rest)).getLast hne =
          (slashed (next :: rest)).getLast htail := by
        simp only [slashed_cons part, List.getLast_append_of_ne_nil _ htail]
      rw [hlast]
      exact ih (fun other hother => hparts other (by simp [hother])) htail

theorem strip_slashed : strip (slashed parts) '/' = trimStartMatches (slashed parts) '/' := by
  cases hcons : parts with
  | nil => rfl
  | cons part rest =>
    rw [← hcons, strip, ← trimStartMatches, List.rdropWhile_eq_self_iff]
    rw [trimStart_slashed parts hparts part rest hcons]
    intro hne hlast
    have hne' : slashed parts ≠ [] := slashed_ne_nil parts (by simp [hcons])
    refine getLast_slashed_ne parts hparts hne' (Eq.trans ?_ (by simpa using hlast))
    simp only [hcons, slashed_cons, List.cons_append, List.getLast_cons hne]

theorem splitOn_strip_slashed (hne : parts ≠ []) :
    (strip (slashed parts) '/').splitOn '/' = parts := by
  rw [strip_slashed parts hparts, splitOn_trimStart_slashed parts hparts hne]

theorem strip_slashed_ne_nil (hne : parts ≠ []) : strip (slashed parts) '/' ≠ [] := by
  intro hempty
  have hsplit := splitOn_strip_slashed parts hparts hne
  rw [hempty] at hsplit
  rw [← hsplit] at hparts
  exact (hparts [] (by simp)).1 rfl

end

/-! ### The components of a text -/

/-- The pieces between slashes that `normalize_path` keeps. -/
def componentsOf (pathPart : Str) : List Str :=
  ((trim pathPart).splitOn '/').filter fun part => !part.isEmpty

theorem component_of_mem (pathPart part : Str) (h : part ∈ componentsOf pathPart) :
    Component part := by
  obtain ⟨hpart, hne⟩ := List.mem_filter.mp h
  exact ⟨by simpa using hne, not_mem_of_mem_splitOn _ part '/' hpart⟩

theorem componentsOf_slashed (parts : List Str) (hparts : ∀ part ∈ parts, Component part)
    (hblank : ¬ EndsBlank (slashed parts)) : componentsOf (slashed parts) = parts := by
  rw [componentsOf, trim_slashed parts hparts hblank, splitOn_slashed parts hparts,
    List.filter_cons_of_neg (by simp), List.filter_eq_self]
  intro part hpart
  simpa using (hparts part hpart).1

theorem normalizePath_eq (pathPart : Str) :
    normalizePath pathPart =
      if componentsOf pathPart = [] then ['/'] else slashed (componentsOf pathPart) := by
  have hcomponents := component_of_mem pathPart
  have hshort (h : trim pathPart = [] ∨ trim pathPart = ['/']) : componentsOf pathPart = [] := by
    rcases h with h | h <;> rw [componentsOf, h] <;> rfl
  have hnormalize : normalizePath pathPart =
      if trim pathPart = [] ∨ trim pathPart = ['/'] then ['/']
      else if join ['/'] (componentsOf pathPart) = [] then ['/']
      else '/' :: join ['/'] (componentsOf pathPart) := rfl
  rw [hnormalize]
  by_cases hempty : componentsOf pathPart = []
  · simp [hempty, join]
  · have hjoin := join_components _ hcomponents hempty
    have hcollapsed : join ['/'] (componentsOf pathPart) ≠ [] := by
      intro h
      rw [h] at hjoin
      cases hparts : componentsOf pathPart with
      | nil => exact hempty hparts
      | cons part parts =>
        rw [hparts] at hjoin hcomponents
        have hne := (hcomponents part (by simp)).1
        simp [slashed_cons, hne] at hjoin
    rw [if_neg hempty, if_neg (mt hshort hempty), if_neg hcollapsed, hjoin]

/-- `parse` by the components of what is left of a path. -/
theorem parse_eq (path pathPart : Str) (query : List (Str × Str))
    (hsplit : splitQuery (stripProtocol path) = (pathPart, query)) :
    DbPath.parse path =
      if componentsOf pathPart = [] then .ok { DbPath.root with query }
      else DbPath.classify path (componentsOf pathPart) query := by
  rw [DbPath.parse, hsplit]
  simp only [normalizePath_eq pathPart]
  cases hparts : componentsOf pathPart with
  | nil => simp
  | cons part parts =>
    have hcomponents : ∀ other ∈ part :: parts, Component other := fun other hother =>
      component_of_mem pathPart other (by rw [hparts]; exact hother)
    have hroot : slashed (part :: parts) ≠ ['/'] := by
      simp [slashed_cons, (hcomponents part (by simp)).1]
    simp only [reduceCtorEq, if_false, if_neg hroot,
      splitOn_trimStart_slashed _ hcomponents (by simp)]

end FsspecDb
