import FsspecDb.Ddl.Paths
import FsspecDb.Path.Names

/-!
# The parts of a text that `urlsplit` returns

All cuts for the path are made in the text before the first question mark or number sign;
the query is what stands between the two.
-/

namespace FsspecDb.Ddl
open Text

/-- What `urlsplit` takes out of a text wherever it stands. -/
def isBreak (c : Char) : Bool := c = '\t' || c = '\r' || c = '\n'

def unbroken (text : Str) : Str := text.filter fun c => !isBreak c

/-- At the start, `urlsplit` takes off blanks and control characters. -/
def isLeading (c : Char) : Bool := c.toNat ≤ 0x20

def cleaned (text : Str) : Str := unbroken (text.dropWhile isLeading)

/-- The characters that end a path. -/
def isMark (c : Char) : Bool := c = '?' || c = '#'

def pathText (path : Str) : Str := path.takeWhile fun c => !isMark c

/-- What comes behind the text: a query, a fragment, or a query and a fragment. -/
def pathTail (path : Str) : Str := path.dropWhile fun c => !isMark c

/-- A name that can stand before the colon, such as `db`. -/
def Scheme (scheme : Str) : Prop :=
  ∃ c rest, scheme = c :: rest ∧ c.isAlpha = true ∧ rest.all isSchemeChar = true

/-- What stands behind two slashes, and what comes behind that. -/
def authority (text : Str) : Str := (splitNetloc (splitScheme (cleaned text)).2).1

def urlPath (text : Str) : Str := (splitNetloc (splitScheme (cleaned text)).2).2

/-- `urlsplit` raises for no authority, and for none that it accepts. -/
def Accepted (netlocError : Str → Option Str) (text : Str) : Prop :=
  authority text = [] ∨ netlocError (authority text) = none

/-! ### Cleaning -/

theorem unbroken_append (s t : Str) : unbroken (s ++ t) = unbroken s ++ unbroken t :=
  List.filter_append ..

theorem unbroken_eq_self (text : Str) (h : ∀ c ∈ text, isBreak c = false) :
    unbroken text = text := by
  rw [unbroken, List.filter_eq_self]
  intro c hc
  rw [h c hc]
  rfl

theorem unbroken_breaks (text : Str) (h : ∀ c ∈ text, isBreak c = true) : unbroken text = [] := by
  rw [unbroken, List.filter_eq_nil_iff]
  intro c hc
  rw [h c hc]
  simp

theorem not_isBreak_of_mem (text : Str) (c : Char) (h : c ∈ unbroken text) :
    isBreak c = false := by
  simpa using (List.mem_filter.mp h).2

theorem isBreak_isLeading (c : Char) (h : isBreak c = true) :
    isLeading c = true ∧ isWhitespace c = true := by
  simp only [isBreak, Bool.or_eq_true, decide_eq_true_eq] at h
  rcases h with (rfl | rfl) | rfl <;> decide

theorem not_isBreak_of_not_leading (c : Char) (h : isLeading c = false) : isBreak c = false := by
  cases hb : isBreak c with
  | false => rfl
  | true => rw [(isBreak_isLeading c hb).1] at h; cases h

theorem unbroken_cons (c : Char) (text : Str) (hc : isBreak c = false) :
    unbroken (c :: text) = c :: unbroken text := List.filter_cons_of_pos (by simp [hc])

theorem cleaned_append (s : Str) (c : Char) (t : Str) (hc : isLeading c = false) :
    cleaned (s ++ c :: t) = cleaned s ++ c :: unbroken t := by
  rw [← unbroken_cons c t (not_isBreak_of_not_leading c hc), cleaned, cleaned,
    List.dropWhile_append]
  split
  · next hempty =>
    rw [List.isEmpty_iff.mp hempty, List.dropWhile_cons_of_neg (by simp [hc])]
    rfl
  · exact unbroken_append _ _

theorem cleaned_leading (s t : Str) (hs : ∀ c ∈ s, isLeading c = true) :
    cleaned (s ++ t) = cleaned t := by
  rw [cleaned, List.dropWhile_append_of_pos hs]
  rfl

theorem mem_of_mem_cleaned (text : Str) (c : Char) (h : c ∈ cleaned text) : c ∈ text :=
  (List.dropWhile_sublist _).mem (List.mem_filter.mp h).1

/-! ### Schemes -/

theorem scheme_no_colon (scheme : Str) (h : Scheme scheme) : ':' ∉ scheme := by
  obtain ⟨c, rest, rfl, hc, hrest⟩ := h
  rw [List.mem_cons, not_or]
  constructor
  · rintro rfl
    exact absurd hc (by decide)
  · exact fun hmem => absurd (List.all_eq_true.mp hrest ':' hmem) (by decide)

theorem isMark_char (c : Char) (h : isMark c = true) : c = '?' ∨ c = '#' := by
  simpa [isMark] using h

/- A mark is none of the characters of a class without the two marks. -/
theorem not_isMark (p : Char → Bool) (hp : p '?' = false ∧ p '#' = false) (c : Char)
    (h : p c = true) : isMark c = false := by
  by_contra hmark
  rw [Bool.not_eq_false] at hmark
  rcases isMark_char c hmark with rfl | rfl
  · rw [hp.1] at h
    cases h
  · rw [hp.2] at h
    cases h

theorem mark_not_mem_scheme (scheme : Str) (h : Scheme scheme) : ∀ c ∈ scheme, c ≠ '/' ∧
    isMark c = false := by
  obtain ⟨first, rest, rfl, hfirst, hrest⟩ := h
  have hchar (c : Char) (hc : isSchemeChar c = true) : c ≠ '/' ∧ isMark c = false := by
    refine ⟨?_, not_isMark isSchemeChar (by decide) c hc⟩
    rintro rfl
    exact absurd hc (by decide)
  intro c hc
  rcases List.mem_cons.mp hc with rfl | hc
  · exact hchar c (by simp [isSchemeChar, Char.isAlphanum, hfirst])
  · exact hchar c (List.all_eq_true.mp hrest c hc)

theorem splitScheme_of_scheme (scheme rest : Str) (h : Scheme scheme) :
    (splitScheme (scheme ++ ':' :: rest)).2 = rest := by
  have hcolon := scheme_no_colon scheme h
  obtain ⟨c, more, rfl, hc, hmore⟩ := h
  rw [splitScheme, splitOnce_append _ _ ':' hcolon]
  simp [hc, hmore]

theorem splitScheme_of_none (url : Str)
    (h : ∀ scheme rest, Scheme scheme → url ≠ scheme ++ ':' :: rest) :
    (splitScheme url).2 = url := by
  unfold splitScheme
  split
  · next c scheme rest hsplit =>
    split
    · next hscheme =>
      rw [Bool.and_eq_true] at hscheme
      exact absurd (splitOnce_char_eq_some _ _ _ ':' hsplit).1 (h _ _ ⟨c, scheme, rfl, hscheme⟩)
    · rfl
  · rfl

/-- What ends the path does not change where the scheme ends. -/
theorem splitScheme_append (url tail : Str) (htail : ∀ c ∈ tail.head?, isMark c = true) :
    (splitScheme (url ++ tail)).2 = (splitScheme url).2 ++ tail := by
  by_cases hscheme : ∃ scheme rest, Scheme scheme ∧ url = scheme ++ ':' :: rest
  · obtain ⟨scheme, rest, hscheme, rfl⟩ := hscheme
    rw [List.append_assoc, List.cons_append, splitScheme_of_scheme _ _ hscheme,
      splitScheme_of_scheme _ _ hscheme]
  · have hnone : ∀ scheme rest, Scheme scheme → url ≠ scheme ++ ':' :: rest :=
      fun scheme rest hs heq => hscheme ⟨scheme, rest, hs, heq⟩
    rw [splitScheme_of_none url hnone]
    refine splitScheme_of_none _ fun scheme rest hs heq => ?_
    rcases List.append_eq_append_iff.mp heq with ⟨middle, hmiddle, hrest⟩ | ⟨middle, hmiddle, hrest⟩
    · cases middle with
      | nil =>
        rw [List.nil_append] at hrest
        exact absurd (htail ':' (by rw [hrest]; rfl)) (by decide)
      | cons c middle =>
        have hmark := htail c (by rw [hrest]; rfl)
        have hc : c ∈ scheme := by rw [hmiddle]; simp
        rw [(mark_not_mem_scheme scheme hs c hc).2] at hmark
        cases hmark
    · cases middle with
      | nil =>
        rw [List.nil_append] at hrest
        exact absurd (htail ':' (by rw [← hrest]; rfl)) (by decide)
      | cons c middle =>
        obtain ⟨rfl, _⟩ := List.cons.inj hrest
        exact hnone scheme middle hs hmiddle

/-! ### Authorities -/

theorem splitNetloc_slashes (text : Str) :
    splitNetloc ('/' :: '/' :: text) =
      (text.takeWhile fun c => !(c = '/' || c = '?' || c = '#'),
        text.dropWhile fun c => !(c = '/' || c = '?' || c = '#')) := by
  rw [splitNetloc, List.span_eq_takeWhile_dropWhile]

theorem splitNetloc_of_not (text : Str) (h : ¬ "//".toList <+: text) :
    splitNetloc text = ([], text) := by
  unfold splitNetloc
  split
  · next rest => exact absurd ⟨rest, rfl⟩ h
  · rfl

/- An authority that a slash ends. -/
theorem splitNetloc_authority (name rest : Str)
    (hname : ∀ c ∈ name, c ≠ '/' ∧ isMark c = false) (hrest : ∀ c ∈ rest.head?, c = '/') :
    splitNetloc ('/' :: '/' :: (name ++ rest)) = (name, rest) := by
  have hkept : ∀ c ∈ name, (!(c = '/' || c = '?' || c = '#')) = true := by
    intro c hc
    obtain ⟨hslash, hmark⟩ := hname c hc
    simp only [isMark, Bool.or_eq_false_iff, decide_eq_false_iff_not] at hmark
    simp [hslash, hmark]
  rw [splitNetloc_slashes, List.takeWhile_append_of_pos hkept, List.dropWhile_append_of_pos hkept]
  cases rest with
  | nil => simp
  | cons c rest =>
    rw [hrest c rfl]
    simp

theorem splitNetloc_append (text tail : Str) (htail : ∀ c ∈ tail.head?, isMark c = true) :
    splitNetloc (text ++ tail) = ((splitNetloc text).1, (splitNetloc text).2 ++ tail) := by
  have hstop : ∀ c ∈ tail.head?, (!(c = '/' || c = '?' || c = '#')) = false := by
    intro c hc
    rcases isMark_char c (htail c hc) with rfl | rfl <;> decide
  by_cases hslashes : "//".toList <+: text
  · obtain ⟨rest, rfl⟩ := hslashes
    rw [List.append_assoc]
    change splitNetloc ('/' :: '/' :: (rest ++ tail)) = ((splitNetloc ('/' :: '/' :: rest)).1,
      (splitNetloc ('/' :: '/' :: rest)).2 ++ tail)
    rw [splitNetloc_slashes, splitNetloc_slashes, takeWhile_append_stop _ rest tail hstop,
      dropWhile_append_stop _ rest tail hstop]
  · rw [splitNetloc_of_not text hslashes]
    refine splitNetloc_of_not _ fun hprefix => hslashes ?_
    cases tail with
    | nil => rwa [List.append_nil] at hprefix
    | cons c tail =>
      have hc : c ∉ "//".toList := by
        rcases isMark_char c (htail c rfl) with rfl | rfl <;> decide
      exact (prefix_append_cons_iff "//".toList text tail c hc).mp hprefix

/-! ### The parts of a URL -/

theorem pathText_append (path : Str) : pathText path ++ pathTail path = path :=
  List.takeWhile_append_dropWhile ..

/- A text without marks and what a mark begins. -/
theorem pathText_split (text tail : Str) (htext : ∀ c ∈ text, isMark c = false)
    (htail : ∀ c ∈ tail.head?, isMark c = true) :
    pathText (text ++ tail) = text ∧ pathTail (text ++ tail) = tail := by
  have hkept : ∀ c ∈ text, (!isMark c) = true := fun c hc => by rw [htext c hc]; rfl
  rw [pathText, pathTail, List.takeWhile_append_of_pos hkept, List.dropWhile_append_of_pos hkept]
  cases tail with
  | nil => simp
  | cons c tail =>
    have hmark := htail c rfl
    rw [List.takeWhile_cons_of_neg (by simp [hmark]), List.dropWhile_cons_of_neg (by simp [hmark]),
      List.append_nil]
    exact ⟨rfl, rfl⟩

theorem not_mark_of_mem_pathText (path : Str) (c : Char) (h : c ∈ pathText path) :
    isMark c = false := by
  simpa using List.mem_takeWhile_imp h

theorem mark_head_pathTail (path : Str) : ∀ c ∈ (pathTail path).head?, isMark c = true := by
  intro c hc
  simpa using head_dropWhile (fun c => !isMark c) path c hc

theorem splitScheme_suffix (url : Str) : (splitScheme url).2 <:+ url := by
  unfold splitScheme
  split
  · next c scheme rest hsplit =>
    split
    · rw [(splitOnce_char_eq_some _ _ _ ':' hsplit).1]
      exact (List.suffix_cons _ _).trans (List.suffix_append _ _)
    · exact List.suffix_rfl
  · exact List.suffix_rfl

theorem splitNetloc_suffix (url : Str) : (splitNetloc url).2 <:+ url := by
  unfold splitNetloc
  split
  · next rest =>
    rw [List.span_eq_takeWhile_dropWhile]
    exact (List.dropWhile_suffix _).trans ((List.suffix_cons _ _).trans (List.suffix_cons _ _))
  · exact List.suffix_rfl

theorem urlPath_suffix (text : Str) : urlPath text <:+ cleaned text :=
  (splitNetloc_suffix _).trans (splitScheme_suffix _)

theorem mem_of_mem_urlPath (text : Str) (c : Char) (h : c ∈ urlPath text) :
    c ∈ text ∧ isBreak c = false := by
  have hcleaned := (urlPath_suffix text).mem h
  exact ⟨mem_of_mem_cleaned text c hcleaned, not_isBreak_of_mem _ c hcleaned⟩

theorem isMark_leading (c : Char) (h : isMark c = true) :
    isLeading c = false ∧ isBreak c = false := by
  rcases isMark_char c h with rfl | rfl <;> decide

theorem cleaned_append_tail (text tail : Str) (htail : ∀ c ∈ tail.head?, isMark c = true) :
    cleaned (text ++ tail) = cleaned text ++ unbroken tail := by
  cases tail with
  | nil => simp [unbroken]
  | cons c tail =>
    obtain ⟨hleading, hbreak⟩ := isMark_leading c (htail c rfl)
    rw [cleaned_append text c tail hleading, unbroken, unbroken,
      List.filter_cons_of_pos (by simp [hbreak])]

/-- The query in what comes behind the path. -/
def tailQuery (tail : Str) : Str :=
  match tail with
  | '?' :: query => query.takeWhile fun c => c ≠ '#'
  | _ => []

theorem takeWhile_number (query : Str) (h : '#' ∉ query) :
    query.takeWhile (fun c => c ≠ '#') = query := by
  rw [List.takeWhile_eq_self_iff]
  intro c hc
  simpa using fun heq : c = '#' => h (heq ▸ hc)

theorem takeWhile_number_append (query fragment : Str) (h : '#' ∉ query) :
    (query ++ '#' :: fragment).takeWhile (fun c => c ≠ '#') = query := by
  rw [List.takeWhile_append, if_pos (by rw [takeWhile_number query h])]
  simp

/-- How `urlsplit` divides what the path and its tail have become. -/
theorem cut_tail (text tail : Str) (htext : ∀ c ∈ text, isMark c = false)
    (htail : ∀ c ∈ tail.head?, isMark c = true) :
    let url := ((splitOnce (text ++ unbroken tail) ['#']).getD (text ++ unbroken tail, [])).1
    (splitOnce url ['?']).getD (url, []) = (text, unbroken (tailQuery tail)) := by
  have hnumber : '#' ∉ text := fun h => absurd (htext _ h) (by decide)
  have hquestion : '?' ∉ text := fun h => absurd (htext _ h) (by decide)
  cases tail with
  | nil =>
    simp only [unbroken, tailQuery, List.filter_nil, List.append_nil,
      splitOnce_eq_none _ '#' [] hnumber, splitOnce_eq_none _ '?' [] hquestion, Option.getD_none]
  | cons c tail =>
    have hmark := htail c rfl
    rw [unbroken_cons c tail (isMark_leading c hmark).2]
    rcases isMark_char c hmark with rfl | rfl
    · have hbefore (query : Str) (hquery : '#' ∉ query) :
          '#' ∉ text ++ '?' :: unbroken query := by
        simp [hnumber, unbroken, hquery]
      by_cases hfragment : '#' ∈ tail
      · obtain ⟨query, fragment, rfl, hquery⟩ := List.eq_append_cons_of_mem hfragment
        have hcut : text ++ '?' :: unbroken (query ++ '#' :: fragment) =
            (text ++ '?' :: unbroken query) ++ '#' :: unbroken fragment := by
          rw [unbroken_append, unbroken_cons '#' fragment (by decide), List.append_assoc,
            List.cons_append]
        simp only [tailQuery, takeWhile_number_append query fragment hquery]
        rw [hcut]
        simp only [splitOnce_append _ _ '#' (hbefore query hquery), Option.getD_some,
          splitOnce_append _ _ '?' hquestion]
      · simp only [tailQuery, takeWhile_number tail hfragment,
          splitOnce_eq_none _ '#' [] (hbefore tail hfragment), Option.getD_none,
          splitOnce_append _ _ '?' hquestion, Option.getD_some]
    · simp only [splitOnce_append _ _ '#' hnumber, Option.getD_some,
        splitOnce_eq_none _ '?' [] hquestion, Option.getD_none]
      rfl

/-- `urlsplit` cuts the text before the first mark, and takes the query between the marks. -/
theorem urlsplit_eq (netlocError : Str → Option Str) (path : Str) :
    ∃ scheme fragment, urlsplit netlocError path =
      match if authority (pathText path) = [] then none
        else netlocError (authority (pathText path)) with
      | some msg => .error (.ValueError msg)
      | none => .ok ⟨scheme, authority (pathText path), urlPath (pathText path),
          unbroken (tailQuery (pathTail path)), fragment⟩ := by
  have htail := mark_head_pathTail path
  have htext : ∀ c ∈ urlPath (pathText path), isMark c = false := fun c hc =>
    not_mark_of_mem_pathText path c (mem_of_mem_urlPath _ c hc).1
  have hhead : ∀ c ∈ (unbroken (pathTail path)).head?, isMark c = true := by
    cases hpath : pathTail path with
    | nil => simp [unbroken]
    | cons c tail =>
      rw [hpath] at htail
      rw [unbroken_cons c tail (isMark_leading c (htail c rfl)).2]
      exact htail
  have hcleaned : cleaned path = cleaned (pathText path) ++ unbroken (pathTail path) := by
    rw [← cleaned_append_tail _ _ htail, pathText_append]
  have hnetloc : splitNetloc (splitScheme (cleaned path)).2 =
      (authority (pathText path), urlPath (pathText path) ++ unbroken (pathTail path)) := by
    rw [hcleaned, splitScheme_append _ _ hhead, splitNetloc_append _ _ hhead]
    rfl
  have hcut := cut_tail _ _ htext htail
  refine ⟨(splitScheme (cleaned path)).1, ((splitOnce (urlPath (pathText path) ++
    unbroken (pathTail path)) ['#']).getD (urlPath (pathText path) ++
    unbroken (pathTail path), [])).2, ?_⟩
  have hunfold : urlsplit netlocError path =
      match if (splitNetloc (splitScheme (cleaned path)).2).1 = [] then none
        else netlocError (splitNetloc (splitScheme (cleaned path)).2).1 with
      | some msg => .error (.ValueError msg)
      | none =>
        let rest := (splitNetloc (splitScheme (cleaned path)).2).2
        let url := (splitOnce rest ['#']).getD (rest, [])
        let parts := (splitOnce url.1 ['?']).getD (url.1, [])
        .ok ⟨(splitScheme (cleaned path)).1, (splitNetloc (splitScheme (cleaned path)).2).1,
          parts.1, parts.2, url.2⟩ := rfl
  rw [hunfold, hnetloc]
  dsimp only at hcut ⊢
  rw [hcut]

end FsspecDb.Ddl
