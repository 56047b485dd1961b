import FsspecDb.Text
import Mathlib.Data.List.Chain

/-!
# Splitting and trimming

What the splitting functions return says how their argument is put together.
-/

namespace FsspecDb.Text

theorem splitOnce_eq_none (s : Str) (c : Char) (separator : Str) (h : c ∉ s) :
    splitOnce s (c :: separator) = none := by
  induction s with
  | nil => rfl
  | cons d s ih =>
    rw [List.mem_cons, not_or] at h
    rw [splitOnce, ih h.2]
    simp [List.isPrefixOf, h.1]

theorem splitOnce_append_separator (before after separator : Str) (c : Char) (h : c ∉ before) :
    splitOnce (before ++ c :: separator ++ after) (c :: separator) = some (before, after) := by
  induction before with
  | nil => simp [splitOnce]
  | cons d before ih =>
    rw [List.mem_cons, not_or] at h
    rw [List.cons_append, List.cons_append, splitOnce, ih h.2]
    simp [List.isPrefixOf, h.1]

theorem splitOnce_append (before after : Str) (c : Char) (h : c ∉ before) :
    splitOnce (before ++ c :: after) [c] = some (before, after) := by
  have hsplit := splitOnce_append_separator before after [] c h
  rwa [List.append_assoc] at hsplit

theorem splitOnce_eq_none_iff (s separator : Str) (hne : separator ≠ []) :
    splitOnce s separator = none ↔ ¬ separator <:+: s := by
  induction s with
  | nil =>
    rw [splitOnce, List.infix_nil]
    simp [hne]
  | cons c s ih =>
    rw [splitOnce, List.infix_cons_iff, not_or, ← ih, ← List.isPrefixOf_iff_prefix]
    split
    · next h => simp [h]
    · next h => simp [h]

/-- The text before the separator, the separator, and the rest. -/
theorem splitOnce_eq_some (s separator before after : Str)
    (h : splitOnce s separator = some (before, after)) : s = before ++ separator ++ after := by
  induction s generalizing before with
  | nil =>
    rw [splitOnce] at h
    split at h
    · next hempty =>
      obtain ⟨rfl, rfl⟩ := Prod.mk.inj (Option.some.inj h)
      rw [List.isEmpty_iff.mp hempty]
      rfl
    · simp at h
  | cons c s ih =>
    rw [splitOnce] at h
    split at h
    · next hprefix =>
      obtain ⟨rfl, rfl⟩ := Prod.mk.inj (Option.some.inj h)
      obtain ⟨rest, hrest⟩ := List.isPrefixOf_iff_prefix.mp hprefix
      rw [← hrest, List.drop_left, List.nil_append]
    · obtain ⟨⟨before', after'⟩, hsplit, heq⟩ := Option.map_eq_some_iff.mp h
      obtain ⟨rfl, rfl⟩ := Prod.mk.inj heq
      rw [ih before' hsplit]
      rfl

theorem splitOnce_char_eq_some (s before after : Str) (c : Char)
    (h : splitOnce s [c] = some (before, after)) : s = before ++ c :: after ∧ c ∉ before := by
  refine ⟨by simpa using splitOnce_eq_some s [c] before after h, ?_⟩
  induction s generalizing before with
  | nil => simp [splitOnce] at h
  | cons d s ih =>
    rw [splitOnce] at h
    split at h
    · obtain ⟨rfl, _⟩ := Prod.mk.inj (Option.some.inj h)
      simp
    · next hprefix =>
      obtain ⟨⟨before', after'⟩, hsplit, heq⟩ := Option.map_eq_some_iff.mp h
      obtain ⟨rfl, rfl⟩ := Prod.mk.inj heq
      rw [List.mem_cons, not_or]
      exact ⟨by simpa [List.isPrefixOf] using hprefix, ih before' hsplit⟩

theorem not_mem_of_mem_splitOn (s part : Str) (c : Char) (h : part ∈ s.splitOn c) : c ∉ part := by
  induction s generalizing part with
  | nil =>
    rw [List.splitOn_nil, List.mem_singleton] at h
    simp [h]
  | cons d s ih =>
    rw [List.splitOn_cons_eq_if_modifyHead] at h
    split at h
    · rcases List.mem_cons.mp h with rfl | h
      · simp
      · exact ih part h
    · next hne =>
      cases hparts : s.splitOn c with
      | nil => exact absurd hparts (List.splitOn_ne_nil c s)
      | cons first parts =>
        rw [hparts] at ih
        rw [hparts, List.modifyHead_cons, List.mem_cons] at h
        rcases h with rfl | h
        · rw [List.mem_cons, not_or]
          exact ⟨fun heq => hne (by simp [heq]), ih first (by simp)⟩
        · exact ih part (by simp [h])

/- The pieces behind a separator are those of the text behind it. -/
theorem splitOn_append (before after : Str) (c : Char) : ∃ first pieces,
    (before ++ c :: after).splitOn c = first :: pieces ++ after.splitOn c := by
  induction before with
  | nil =>
    refine ⟨[], [], ?_⟩
    rw [List.nil_append, List.splitOn_cons_eq_if_modifyHead, if_pos (beq_self_eq_true c)]
    rfl
  | cons d before ih =>
    obtain ⟨first, pieces, heq⟩ := ih
    rw [List.cons_append, List.splitOn_cons_eq_if_modifyHead, heq]
    split
    · exact ⟨[], first :: pieces, rfl⟩
    · exact ⟨d :: first, pieces, rfl⟩

theorem prefix_append_cons_iff (pattern s t : Str) (c : Char) (h : c ∉ pattern) :
    pattern <+: s ++ c :: t ↔ pattern <+: s := by
  constructor
  · intro hprefix
    rcases List.prefix_or_prefix_of_prefix hprefix (List.prefix_append s (c :: t)) with
      hshort | ⟨rest, rfl⟩
    · exact hshort
    · have hrest : rest <+: c :: t := (List.prefix_append_right_inj s).mp hprefix
      rcases List.prefix_cons_iff.mp hrest with rfl | ⟨rest', rfl, _⟩
      · simp
      · simp at h
  · exact fun hprefix => hprefix.trans (List.prefix_append s (c :: t))

/- A pattern without the character lies on one of its sides. -/
theorem infix_append_cons_iff (pattern s t : Str) (c : Char) (h : c ∉ pattern) :
    pattern <:+: s ++ c :: t ↔ pattern <:+: s ∨ pattern <:+: t := by
  constructor
  · intro hoccurs
    induction s with
    | nil =>
      rcases List.infix_cons_iff.mp hoccurs with hprefix | hoccurs
      · exact .inl ((prefix_append_cons_iff pattern [] t c h).mp hprefix).isInfix
      · exact .inr hoccurs
    | cons d s ih =>
      rcases List.infix_cons_iff.mp hoccurs with hprefix | hoccurs
      · exact .inl ((prefix_append_cons_iff pattern (d :: s) t c h).mp hprefix).isInfix
      · rcases ih hoccurs with hleft | hright
        · exact .inl (List.infix_cons hleft)
        · exact .inr hright
  · rintro (hleft | hright)
    · exact hleft.trans (List.infix_append' [] s (c :: t))
    · exact hright.trans ((List.suffix_cons c t).isInfix.trans (List.suffix_append s _).isInfix)

/- A pattern without the separator lies in one of the parts. -/
theorem infix_join_iff (pattern : Str) (c : Char) (parts : List Str) (h : c ∉ pattern)
    (hne : pattern ≠ []) : pattern <:+: join [c] parts ↔ ∃ part ∈ parts, pattern <:+: part := by
  induction parts with
  | nil =>
    rw [show join [c] [] = [] from rfl, List.infix_nil]
    simp [hne]
  | cons part parts ih =>
    simp only [List.mem_cons, exists_eq_or_imp]
    rw [← ih]
    cases parts with
    | nil =>
      rw [show join [c] [part] = part by simp [join], show join [c] [] = [] from rfl,
        List.infix_nil]
      simp [hne]
    | cons next parts =>
      rw [join, List.intercalate_cons_cons, List.append_assoc, List.singleton_append]
      exact infix_append_cons_iff pattern part _ c h

/-- A weight that adds up across the separator adds up over joined parts. -/
theorem sum_join (weight : Str → Nat) (separator : Char) (hnil : weight [] = 0)
    (hjoin : ∀ s t, weight (s ++ separator :: t) = weight s + weight t) (parts : List Str) :
    weight (join [separator] parts) = (parts.map weight).sum := by
  induction parts with
  | nil => exact hnil
  | cons part parts ih =>
    cases parts with
    | nil => simp [join, List.intercalate]
    | cons next parts =>
      have hcons : join [separator] (part :: next :: parts) =
          part ++ separator :: join [separator] (next :: parts) := by
        simp [join, List.intercalate]
      rw [hcons, hjoin, ih, List.map_cons (l := next :: parts), List.sum_cons]

/-- So the pieces of a text weigh what the text does, and the empty ones can be left out. -/
theorem sum_pieces (weight : Str → Nat) (separator : Char) (hnil : weight [] = 0)
    (hjoin : ∀ s t, weight (s ++ separator :: t) = weight s + weight t) (text : Str) :
    (((text.splitOn separator).filter fun part => !part.isEmpty).map weight).sum =
      weight text := by
  have hfilter (parts : List Str) : ((parts.filter fun part => !part.isEmpty).map weight).sum =
      (parts.map weight).sum := by
    induction parts with
    | nil => rfl
    | cons part parts ih =>
      rw [List.map_cons, List.sum_cons, ← ih]
      cases part with
      | nil => rw [hnil, Nat.zero_add, List.filter_cons_of_neg (by simp)]
      | cons d part => rw [List.filter_cons_of_pos (by simp), List.map_cons, List.sum_cons]
  rw [hfilter, ← sum_join weight separator hnil hjoin]
  exact congrArg weight (List.intercalate_splitOn separator)

/- A separator that is not before the character is looked for behind it. -/
theorem splitOnce_append_cons (before after separator : Str) (c : Char) (hc : c ∉ separator)
    (h : ¬ separator <:+: before) :
    splitOnce (before ++ c :: after) separator =
      (splitOnce after separator).map fun p => (before ++ c :: p.1, p.2) := by
  induction before with
  | nil =>
    have hprefix : ¬ separator <+: [] ++ c :: after := by
      rw [prefix_append_cons_iff separator [] after c hc]
      exact fun hnil => h hnil.isInfix
    rw [List.nil_append, splitOnce, if_neg (by simpa using hprefix)]
    rfl
  | cons d before ih =>
    rw [List.infix_cons_iff, not_or] at h
    have hprefix : ¬ separator <+: (d :: before) ++ c :: after := by
      rw [prefix_append_cons_iff separator (d :: before) after c hc]
      exact h.1
    rw [List.cons_append, splitOnce, if_neg (by simpa using hprefix), ih h.2, Option.map_map]
    rfl

theorem dropWhile_append_eq (p : Char → Bool) (s t : Str) (hs : s ≠ [])
    (h : ∀ c ∈ s, p c = false) : (s ++ t).dropWhile p = s ++ t := by
  cases s with
  | nil => exact absurd rfl hs
  | cons c s => rw [List.cons_append, List.dropWhile_cons_of_neg (by simp [h c (by simp)])]

/- A run ends where a character stands that is not of it. -/
theorem takeWhile_append_stop (p : Char → Bool) (s t : Str) (h : ∀ c ∈ t.head?, p c = false) :
    (s ++ t).takeWhile p = s.takeWhile p := by
  induction s with
  | nil =>
    cases t with
    | nil => rfl
    | cons c t => exact List.takeWhile_cons_of_neg (by simp [h c rfl])
  | cons d s ih => rw [List.cons_append, List.takeWhile_cons, List.takeWhile_cons, ih]

theorem dropWhile_append_stop (p : Char → Bool) (s t : Str) (h : ∀ c ∈ t.head?, p c = false) :
    (s ++ t).dropWhile p = s.dropWhile p ++ t := by
  induction s with
  | nil =>
    cases t with
    | nil => rfl
    | cons c t => exact List.dropWhile_cons_of_neg (by simp [h c rfl])
  | cons d s ih =>
    rw [List.cons_append, List.dropWhile_cons, List.dropWhile_cons, ih]
    split <;> rfl

/- What is left of a text without its first run begins with another character. -/
theorem head_dropWhile (p : Char → Bool) (s : Str) : ∀ c ∈ (s.dropWhile p).head?, p c = false := by
  intro c hc
  have hnot := List.head?_dropWhile_not p s
  rw [Option.mem_def.mp hc] at hnot
  simpa using hnot

/-- What is taken off at the ends. -/
theorem ends_split (p : Char → Bool) (s : Str) : ∃ before after,
    s = before ++ ((s.dropWhile p).rdropWhile p ++ after) ∧ (∀ c ∈ before, p c = true) ∧
      ∀ c ∈ after, p c = true := by
  refine ⟨s.takeWhile p, (s.dropWhile p).rtakeWhile p, ?_, ?_, ?_⟩
  · rw [List.rdropWhile_append_rtakeWhile, List.takeWhile_append_dropWhile]
  · exact fun c hc => List.mem_takeWhile_imp hc
  · exact fun c hc => List.mem_rtakeWhile_imp hc

theorem ends_kept (p : Char → Bool) (s : Str) :
    (∀ c ∈ ((s.dropWhile p).rdropWhile p).head?, p c = false) ∧
      ∀ c ∈ ((s.dropWhile p).rdropWhile p).getLast?, p c = false := by
  have hprefix := List.rdropWhile_prefix p (s.dropWhile p)
  constructor
  · intro c hc
    cases hkept : (s.dropWhile p).rdropWhile p with
    | nil => simp [hkept] at hc
    | cons d rest =>
      rw [hkept] at hc hprefix
      obtain ⟨more, hmore⟩ := hprefix
      exact head_dropWhile p s c (by rw [← hmore]; exact hc)
  · intro c hc
    cases hkept : (s.dropWhile p).rdropWhile p with
    | nil => simp [hkept] at hc
    | cons d rest =>
      have hne : (s.dropWhile p).rdropWhile p ≠ [] := by simp [hkept]
      have hnot := List.rdropWhile_last_not p _ hne
      rw [List.getLast?_eq_some_getLast hne] at hc
      rw [Option.some.inj (Option.mem_def.mp hc)] at hnot
      simpa using hnot

theorem ends_dropped (p : Char → Bool) (before s after : Str) (hbefore : ∀ c ∈ before, p c = true)
    (hafter : ∀ c ∈ after, p c = true) (hhead : ∀ c ∈ s.head?, p c = false)
    (hlast : ∀ c ∈ s.getLast?, p c = false) :
    ((before ++ (s ++ after)).dropWhile p).rdropWhile p = s := by
  rw [List.dropWhile_append_of_pos hbefore]
  cases s with
  | nil =>
    have hall : after.dropWhile p = [] := List.dropWhile_eq_nil_iff.mpr hafter
    rw [List.nil_append, hall]
    rfl
  | cons c s =>
    have hback : after.reverse.dropWhile p = [] :=
      List.dropWhile_eq_nil_iff.mpr fun d hd => hafter d (List.mem_reverse.mp hd)
    rw [List.cons_append, List.dropWhile_cons_of_neg (by simp [hhead c rfl]), ← List.cons_append,
      List.rdropWhile, List.reverse_append, List.dropWhile_append, hback]
    have hself : (c :: s).rdropWhile p = c :: s := by
      rw [List.rdropWhile_eq_self_iff]
      intro hne
      rw [hlast _ (List.getLast?_eq_some_getLast hne)]
      simp
    exact hself

theorem splitOnce_append_right (s t separator before after : Str)
    (h : splitOnce s separator = some (before, after)) (hne : separator ≠ []) :
    splitOnce (s ++ t) separator = some (before, after ++ t) := by
  induction s generalizing before with
  | nil =>
    rw [splitOnce, if_neg (by simpa using hne)] at h
    cases h
  | cons c s ih =>
    rw [splitOnce] at h
    split at h
    · next hprefix =>
      obtain ⟨rfl, rfl⟩ := Prod.mk.inj (Option.some.inj h)
      obtain ⟨rest, hrest⟩ := List.isPrefixOf_iff_prefix.mp hprefix
      have hlong : separator.isPrefixOf (c :: (s ++ t)) = true := by
        rw [List.isPrefixOf_iff_prefix, ← List.cons_append, ← hrest]
        exact ⟨rest ++ t, (List.append_assoc ..).symm⟩
      rw [List.cons_append, splitOnce, if_pos hlong, ← List.cons_append, ← hrest,
        List.append_assoc, List.drop_left, List.drop_left]
    · next hprefix =>
      obtain ⟨⟨before', after'⟩, hsplit, heq⟩ := Option.map_eq_some_iff.mp h
      obtain ⟨rfl, rfl⟩ := Prod.mk.inj heq
      have hlength := congrArg List.length (splitOnce_eq_some s separator before' after' hsplit)
      rw [List.length_append, List.length_append] at hlength
      -- a separator that begins here would lie in the text
      have hshort : ¬ separator.isPrefixOf (c :: (s ++ t)) = true := by
        rw [List.isPrefixOf_iff_prefix, ← List.cons_append]
        intro hlong
        refine hprefix (List.isPrefixOf_iff_prefix.mpr ?_)
        refine List.prefix_of_prefix_length_le hlong (List.prefix_append _ _) ?_
        rw [List.length_cons]
        omega
      rw [List.cons_append, splitOnce, if_neg hshort, ih before' hsplit]
      rfl

/- It is the first one. -/
theorem splitOnce_before (s separator before after : Str) (hne : separator ≠ [])
    (h : splitOnce s separator = some (before, after)) : ¬ separator <:+: before := by
  intro hoccurs
  cases hsplit : splitOnce before separator with
  | none => exact (splitOnce_eq_none_iff before separator hne).mp hsplit hoccurs
  | some p =>
    have hbefore := splitOnce_eq_some before separator p.1 p.2 hsplit
    have hlonger := splitOnce_append_right before (separator ++ after) separator p.1 p.2 hsplit hne
    rw [← List.append_assoc, ← splitOnce_eq_some s separator before after h, h] at hlonger
    have hsame := (Prod.mk.inj (Option.some.inj hlonger)).1
    have hlength := congrArg List.length hbefore
    have hpos := List.length_pos_iff.mpr hne
    rw [List.length_append, List.length_append, ← hsame] at hlength
    omega

theorem rsplitOnce_eq_none_iff (s : Str) (c : Char) : rsplitOnce s c = none ↔ c ∉ s := by
  induction s with
  | nil => simp [rsplitOnce]
  | cons d s ih =>
    rw [rsplitOnce, List.mem_cons, not_or, ← ih]
    cases hsplit : rsplitOnce s c with
    | none => simp [eq_comm]
    | some p => simp

theorem rsplitOnce_append (before after : Str) (c : Char) (h : c ∉ after) :
    rsplitOnce (before ++ c :: after) c = some (before, after) := by
  induction before with
  | nil => rw [List.nil_append, rsplitOnce, (rsplitOnce_eq_none_iff after c).mpr h, if_pos rfl]
  | cons d before ih => rw [List.cons_append, rsplitOnce, ih]

theorem rsplitOnce_eq_some_iff (s before after : Str) (c : Char) :
    rsplitOnce s c = some (before, after) ↔ s = before ++ c :: after ∧ c ∉ after := by
  constructor
  · intro h
    induction s generalizing before with
    | nil => simp [rsplitOnce] at h
    | cons d s ih =>
      rw [rsplitOnce] at h
      cases hsplit : rsplitOnce s c with
      | none =>
        simp only [hsplit] at h
        split at h
        · next hd =>
          obtain ⟨rfl, rfl⟩ := Prod.mk.inj (Option.some.inj h)
          exact ⟨by rw [hd]; rfl, (rsplitOnce_eq_none_iff s c).mp hsplit⟩
        · simp at h
      | some p =>
        simp only [hsplit, Option.some.injEq, Prod.mk.injEq] at h
        obtain ⟨rfl, rfl⟩ := h
        obtain ⟨heq, hafter⟩ := ih p.1 hsplit
        exact ⟨by rw [heq]; rfl, hafter⟩
  · intro hgiven
    obtain ⟨rfl, h⟩ := hgiven
    exact rsplitOnce_append before after c h

end FsspecDb.Text
