import FsspecDb.Ddl.UrlText
import FsspecDb.Path.Weight

/-!
# Queries that `urlsplit` shortens

`urlsplit` takes tabs and line ends out of the query and cuts it at a number sign. What is
left may have escapes that were none before; it decodes to less all the same.
-/

namespace FsspecDb.Ddl
open Text

/-- The characters below `@` that do not separate anything in a query. -/
def isCounted (c : Char) : Bool := 0 < c.toNat && c.toNat < 64 && c ≠ '&' && c ≠ '='

theorem isCounted_low (c : Char) (h : isCounted c = true) : 0 < c.toNat ∧ c.toNat < 64 := by
  simp only [isCounted, Bool.and_eq_true, decide_eq_true_eq] at h
  exact h.1.1

theorem isBreak_char (c : Char) (h : isBreak c = true) : c = '\t' ∨ c = '\r' ∨ c = '\n' := by
  simpa [isBreak, or_assoc] using h

theorem isBreak_boundary (c : Char) (h : isBreak c = true) :
    Boundary c ∧ isCounted c = true ∧ isSlash c = false := by
  rcases isBreak_char c h with rfl | rfl | rfl <;> decide

/- What holds of a text without breaks, and is kept by one more, holds of all texts. -/
theorem breaks_induction (motive : Str → Prop)
    (hnone : ∀ text, (∀ c ∈ text, isBreak c = false) → motive text)
    (hmore : ∀ before c after, (∀ d ∈ before, isBreak d = false) → isBreak c = true →
      motive after → motive (before ++ c :: after)) (text : Str) : motive text := by
  induction hn : text.length using Nat.strong_induction_on generalizing text with
  | _ n ih =>
    have hsplit := List.takeWhile_append_dropWhile (p := fun c => !isBreak c) (l := text)
    have hbefore : ∀ d ∈ text.takeWhile fun c => !isBreak c, isBreak d = false := fun d hd => by
      simpa using List.mem_takeWhile_imp hd
    cases hrest : text.dropWhile fun c => !isBreak c with
    | nil =>
      rw [hrest, List.append_nil] at hsplit
      rw [hsplit] at hbefore
      exact hnone text hbefore
    | cons c after =>
      have hc := head_dropWhile (fun c => !isBreak c) text c (by rw [hrest]; rfl)
      rw [hrest] at hsplit
      have hlength := congrArg List.length hsplit
      rw [List.length_append, List.length_cons, hn] at hlength
      rw [← hsplit]
      exact hmore _ c after hbefore (by simpa using hc) (ih after.length (by omega) after rfl)

theorem unbroken_break (before after : Str) (c : Char)
    (hbefore : ∀ d ∈ before, isBreak d = false) (hc : isBreak c = true) :
    unbroken (before ++ c :: after) = before ++ unbroken after := by
  rw [unbroken_append, unbroken_eq_self before hbefore, unbroken, unbroken,
    List.filter_cons_of_neg (by simp [hc])]

/-- Every tab or line end that is taken out is missing, whatever escapes are made so. -/
theorem weight_unbroken (text : Str) :
    weight isCounted (unbroken text) + text.countP isBreak ≤ weight isCounted text := by
  induction text using breaks_induction with
  | hnone text htext =>
    have hzero : text.countP isBreak = 0 := by
      rw [List.countP_eq_zero]
      exact fun c hc => by simp [htext c hc]
    rw [unbroken_eq_self text htext, hzero]
    exact Nat.le_refl _
  | hmore before c after hbefore hc ih =>
    obtain ⟨hboundary, hcounted, _⟩ := isBreak_boundary c hc
    have hzero : before.countP isBreak = 0 := by
      rw [List.countP_eq_zero]
      exact fun d hd => by simp [hbefore d hd]
    have hle := weight_append_le isCounted isCounted_low (by decide) before (unbroken after)
    rw [unbroken_break before after c hbefore hc, weight_boundary _ _ _ _ hboundary, hcounted,
      if_pos rfl, List.countP_append, List.countP_cons_of_pos hc, hzero]
    omega

theorem slashes_unbroken (text : Str) : weight isSlash text ≤ weight isSlash (unbroken text) := by
  induction text using breaks_induction with
  | hnone text htext => rw [unbroken_eq_self text htext]
  | hmore before c after hbefore hc ih =>
    obtain ⟨hboundary, _, hslash⟩ := isBreak_boundary c hc
    have hhex : ∀ b, (hexDigit b).isSome = true → counted isSlash b = false := by
      have hall : ∀ n < 256, (hexDigit (UInt8.ofNat n)).isSome = true →
          counted isSlash (UInt8.ofNat n) = false := by
        decide +kernel
      intro b hb
      have h := hall b.toNat b.toNat_lt
      rw [UInt8.ofNat_toNat] at h
      exact h hb
    have hge := weight_append_ge isSlash isSlash_low (by decide) hhex before (unbroken after)
    rw [unbroken_break before after c hbefore hc, weight_boundary _ _ _ _ hboundary, hslash]
    simp only [Bool.false_eq_true, if_false]
    omega

/-- `urlsplit` returns a query that decodes alike only if it takes nothing out of it. -/
theorem query_alike_iff (query : Str) :
    decodeQuery (unbroken (query.takeWhile fun c => c ≠ '#')) = decodeQuery query ↔
      '#' ∉ query ∧ ∀ c ∈ query, isBreak c = false := by
  constructor
  · intro h
    have hweights := congrArg (queryWeight isCounted) h
    rw [queryWeight_decodeQuery isCounted (by decide) (by decide),
      queryWeight_decodeQuery isCounted (by decide) (by decide)] at hweights
    have hbroken := weight_unbroken (query.takeWhile fun c => c ≠ '#')
    by_cases hfragment : '#' ∈ query
    · obtain ⟨before, after, rfl, hbefore⟩ := List.eq_append_cons_of_mem hfragment
      have hweight := weight_boundary isCounted before '#' after (by decide)
      rw [show isCounted '#' = true by decide, if_pos rfl] at hweight
      rw [takeWhile_number_append before after hbefore] at hweights hbroken
      omega
    · refine ⟨hfragment, fun c hc => ?_⟩
      rw [takeWhile_number query hfragment] at hweights hbroken
      have hnone := List.countP_eq_zero.mp (show query.countP isBreak = 0 by omega) c hc
      simpa using hnone
  · rintro ⟨hfragment, hwhole⟩
    rw [takeWhile_number query hfragment, unbroken_eq_self query hwhole]

/-- A query with a protocol never decodes to what is read behind the protocol. -/
theorem protocol_query_ne (before rest : Str) :
    decodeQuery (unbroken (before ++ ':' :: '/' :: '/' :: rest)) ≠ (splitQuery rest).2 := by
  intro h
  have hslashes := slashes_behind_protocol before rest
  have hbroken := slashes_unbroken (before ++ ':' :: '/' :: '/' :: rest)
  rw [← h, queryWeight_decodeQuery isSlash (by decide) (by decide)] at hslashes
  omega

end FsspecDb.Ddl
