import FsspecDb.Path.Components

/-!
# The names between slashes

`normalize_path` leaves out every empty piece, `_parse_path` only those at the ends.
The two see the same names where no two slashes stand side by side inside.
-/

namespace FsspecDb
open Text

/-- The pieces between slashes that are not empty. -/
def namesOf (text : Str) : List Str := (text.splitOn '/').filter fun part => !part.isEmpty

/-- The pieces between slashes, without the empty ones at the ends. -/
def piecesOf (text : Str) : List Str :=
  let clean := strip text '/'
  if clean = [] then [] else clean.splitOn '/'

/-- Two slashes side by side, other than at the ends. -/
def InnerSlashes (text : Str) : Prop := "//".toList <:+: strip text '/'

instance (text : Str) : Decidable (InnerSlashes text) := inferInstanceAs (Decidable (_ <:+: _))

theorem componentsOf_eq (text : Str) : componentsOf text = namesOf (trim text) := rfl

/-! ### Names of a text -/

theorem namesOf_append (s t : Str) : namesOf (s ++ '/' :: t) = namesOf s ++ namesOf t := by
  rw [namesOf, List.splitOn_append_cons_self, List.filter_append]
  rfl

theorem namesOf_cons_slash (t : Str) : namesOf ('/' :: t) = namesOf t := namesOf_append [] t

theorem namesOf_slashes_append (slashes t : Str) (h : ∀ c ∈ slashes, c = '/') :
    namesOf (slashes ++ t) = namesOf t := by
  induction slashes with
  | nil => rfl
  | cons c slashes ih =>
    rw [h c (by simp), List.cons_append, namesOf_cons_slash,
      ih fun d hd => h d (by simp [hd])]

theorem namesOf_append_slashes (t slashes : Str) (h : ∀ c ∈ slashes, c = '/') :
    namesOf (t ++ slashes) = namesOf t := by
  cases slashes with
  | nil => rw [List.append_nil]
  | cons c slashes =>
    have hrest := namesOf_slashes_append slashes [] fun d hd => h d (by simp [hd])
    rw [List.append_nil] at hrest
    rw [h c (by simp), namesOf_append, hrest]
    exact List.append_nil _

theorem namesOf_name (name : Str) (hne : name ≠ []) (hslash : '/' ∉ name) :
    namesOf name = [name] := by
  rw [namesOf, List.splitOn_eq_singleton hslash, List.filter_cons_of_pos (by simpa using hne)]
  rfl

theorem nil_not_mem_namesOf (text : Str) : [] ∉ namesOf text := by
  intro hmem
  have hne := (List.mem_filter.mp hmem).2
  simp at hne

theorem flatten_splitOn (text : Str) :
    (text.splitOn '/').flatten = text.filter fun c => c ≠ '/' := by
  induction text with
  | nil => rfl
  | cons c text ih =>
    rw [List.splitOn_cons_eq_if_modifyHead]
    by_cases hc : c = '/'
    · rw [if_pos (by simpa using hc), List.flatten_cons, ih,
        List.filter_cons_of_neg (by simpa using hc)]
      rfl
    · rw [if_neg (by simpa using hc), List.filter_cons_of_pos (by simpa using hc), ← ih]
      cases hsplit : text.splitOn '/' with
      | nil => exact absurd hsplit (List.splitOn_ne_nil _ _)
      | cons first pieces => rfl

/-- The names are made of all characters but the slashes. -/
theorem flatten_namesOf (text : Str) : (namesOf text).flatten = text.filter fun c => c ≠ '/' := by
  rw [namesOf, ← flatten_splitOn]
  induction text.splitOn '/' with
  | nil => rfl
  | cons part parts ih =>
    cases part with
    | nil => rw [List.filter_cons_of_neg (by simp), ih]; rfl
    | cons c part => rw [List.filter_cons_of_pos (by simp), List.flatten_cons, ih]; rfl

/-! ### Pieces and names -/

theorem strip_split (text : Str) : ∃ before after, text = before ++ (strip text '/' ++ after) ∧
    (∀ c ∈ before, c = '/') ∧ ∀ c ∈ after, c = '/' := by
  obtain ⟨before, after, htext, hbefore, hafter⟩ := ends_split (· == '/') text
  exact ⟨before, after, htext, fun c hc => by simpa using hbefore c hc,
    fun c hc => by simpa using hafter c hc⟩

theorem namesOf_strip (text : Str) : namesOf (strip text '/') = namesOf text := by
  obtain ⟨before, after, htext, hbefore, hafter⟩ := strip_split text
  conv_rhs => rw [htext]
  rw [namesOf_slashes_append _ _ hbefore, namesOf_append_slashes _ _ hafter]

/- The first piece is empty if a slash comes first, another one if a slash comes before
another slash or last. -/
theorem empty_pieces (text : Str) :
    ((text.splitOn '/').head? = some [] ↔ text.head?.all (· == '/')) ∧
      ([] ∈ (text.splitOn '/').tail ↔ text.getLast? = some '/' ∨ "//".toList <:+: text) := by
  induction text with
  | nil => simp
  | cons c text ih =>
    obtain ⟨ihhead, ihtail⟩ := ih
    rw [List.splitOn_cons_eq_if_modifyHead]
    cases hsplit : text.splitOn '/' with
    | nil => exact absurd hsplit (List.splitOn_ne_nil _ _)
    | cons first pieces =>
      rw [hsplit] at ihhead ihtail
      have hoccurs : "//".toList <:+: c :: text ↔
          c = '/' ∧ text.head? = some '/' ∨ "//".toList <:+: text := by
        rw [List.infix_cons_iff]
        refine or_congr_left ?_
        cases text with
        | nil => simp
        | cons d text => simp [List.cons_prefix_cons, eq_comm]
      have hlast : (c :: text).getLast? = some '/' ↔
          text = [] ∧ c = '/' ∨ text.getLast? = some '/' := by
        cases text with
        | nil => simp
        | cons d text => simp [List.getLast?_cons_cons]
      by_cases hc : c = '/'
      · rw [if_pos (by simpa using hc)]
        refine ⟨by simp [hc], ?_⟩
        have hfirst : [] = first ↔ text = [] ∨ text.head? = some '/' := by
          rw [List.head?_cons, Option.some_inj] at ihhead
          rw [eq_comm, ihhead]
          cases text <;> simp
        rw [List.tail_cons] at ihtail
        rw [List.tail_cons, List.mem_cons, hoccurs, hlast, hfirst, ihtail]
        simp only [hc, and_true, true_and]
        exact or_or_or_comm
      · rw [if_neg (by simpa using hc)]
        refine ⟨by simp [hc], ?_⟩
        rw [List.tail_cons] at ihtail
        rw [List.modifyHead_cons, List.tail_cons, hoccurs, hlast, ihtail]
        simp only [hc, and_false, false_and, false_or]

/-- Without slashes side by side, no piece is empty. -/
theorem nil_mem_piecesOf (text : Str) : [] ∈ piecesOf text ↔ InnerSlashes text := by
  rw [piecesOf, InnerSlashes]
  by_cases hne : strip text '/' = []
  · rw [if_pos hne, hne]
    simp
  · rw [if_neg hne]
    obtain ⟨hfirst, hlast⟩ := ends_kept (· == '/') text
    obtain ⟨hhead, htail⟩ := empty_pieces (strip text '/')
    have hnotLast : (strip text '/').getLast? ≠ some '/' :=
      fun h => absurd (hlast '/' h) (by decide)
    rw [or_iff_right hnotLast] at htail
    rw [← htail]
    cases hsplit : (strip text '/').splitOn '/' with
    | nil => exact absurd hsplit (List.splitOn_ne_nil _ _)
    | cons first pieces =>
      rw [hsplit] at hhead
      have hfull : [] ≠ first := by
        intro heq
        have hall := hhead.mp (by rw [← heq]; rfl)
        cases hstrip : strip text '/' with
        | nil => exact hne hstrip
        | cons c rest =>
          rw [hstrip] at hall
          exact absurd (hfirst c (by rw [← strip, hstrip]; rfl)) (by simpa using hall)
      rw [List.mem_cons, or_iff_right hfull, List.tail_cons]

theorem namesOf_eq_filter (text : Str) :
    namesOf text = (piecesOf text).filter fun part => !part.isEmpty := by
  rw [← namesOf_strip, piecesOf]
  by_cases hne : strip text '/' = []
  · rw [if_pos hne, hne]
    rfl
  · rw [if_neg hne]
    rfl

/-- The pieces are the names of a text exactly if they have these names and no empty piece. -/
theorem piecesOf_eq_iff (text other : Str) :
    piecesOf text = namesOf other ↔ namesOf text = namesOf other ∧ ¬ InnerSlashes text := by
  rw [← nil_mem_piecesOf]
  constructor
  · intro h
    rw [namesOf_eq_filter, h]
    refine ⟨?_, nil_not_mem_namesOf other⟩
    rw [List.filter_eq_self]
    exact fun part hpart => (List.mem_filter.mp hpart).2
  · rintro ⟨hnames, hfull⟩
    rw [← hnames, namesOf_eq_filter, eq_comm, List.filter_eq_self]
    intro part hpart
    cases part with
    | nil => exact absurd hpart hfull
    | cons c part => rfl

theorem piecesOf_cons_slash (text : Str) : piecesOf ('/' :: text) = piecesOf text := by
  rw [piecesOf, piecesOf, strip, List.dropWhile_cons_of_pos (by simp)]
  rfl

end FsspecDb
