import FsspecDb.Ddl.UrlText

/-!
# Where both parsers find the same names in a text

`DbPath::parse` strips the text before the first protocol and then whitespace at the ends;
`urlsplit` takes away control characters, a scheme and an authority, and `_parse_path` then
strips a protocol of what is left. The forms in which the names are the same are listed.
-/

namespace FsspecDb.Ddl
open Text

/-- The names that `DbPath::parse` finds in a text without a query. -/
def nativeNames (text : Str) : List Str := componentsOf (stripProtocol text)

/-- The pieces that `_parse_path` finds in it. -/
def pythonPieces (text : Str) : List Str := piecesOf (stripProtocol (urlPath text))

/-! ### The forms -/

/-- A text of names from which neither parser takes anything: nothing blank at the ends, no tab
or line end, and slashes side by side only at the ends. -/
structure Tight (body : Str) : Prop where
  start : ∀ c ∈ body.head?, isWhitespace c = false
  stop : ∀ c ∈ body.getLast?, isWhitespace c = false
  whole : ∀ c ∈ body, isBreak c = false
  single : ¬ InnerSlashes body

/-- What stands behind the scheme in a front that the protocol follows, if there is a colon
behind a scheme in it. -/
def BehindScheme (front rest : Str) : Prop :=
  (∃ scheme, Scheme scheme ∧ front = scheme ++ ':' :: rest) ∨
    (rest = front ∧ ∀ scheme more, Scheme scheme → front ++ [':'] ≠ scheme ++ ':' :: more)

/-- What stands behind the authority, if there is one that a slash ends. -/
def BehindAuthority (rest start : Str) : Prop :=
  (start = rest ∧ ¬ "//".toList <+: rest) ∨
    ∃ name more, '/' ∉ name ∧ rest = '/' :: '/' :: (name ++ '/' :: more) ∧ start = '/' :: more

inductive BodyAlike : Str → Prop
  /-- Neither a protocol nor a scheme nor an authority. -/
  | bare (front body back : Str)
      (hfront : ∀ c ∈ front, isWhitespace c = true ∧ isLeading c = true)
      (hback : ∀ c ∈ back, isBreak c = true) (hbody : Tight body)
      (hstart : ∀ c ∈ body.head?, isLeading c = false)
      (hprotocol : ¬ "://".toList <:+: front ++ (body ++ back))
      (hscheme : ∀ scheme rest, Scheme scheme → body ≠ scheme ++ ':' :: rest)
      (hauthority : ∀ c rest, body = '/' :: '/' :: c :: rest → c = '/') :
      BodyAlike (front ++ (body ++ back))
  /-- An authority of blanks, and blanks at the end that make up for it: all names are the
  same blank text, and each parser misses another one of them. -/
  | blankAuthority (front slashes back : Str) (count : Nat)
      (hfront : ∀ c ∈ front, isWhitespace c = true ∧ isLeading c = true)
      (hback : ∀ c ∈ back, isWhitespace c = true) (hblank : unbroken back ≠ [])
      (hslashes : slashes ≠ [] ∧ ∀ c ∈ slashes, c = '/') :
      BodyAlike (front ++ '/' :: '/' :: (unbroken back ++ (slashes ++
        ((List.replicate count (unbroken back ++ ['/'])).flatten ++ back))))
  /-- Nothing but an authority of blanks. -/
  | onlyAuthority (front back : Str)
      (hfront : ∀ c ∈ front, isWhitespace c = true ∧ isLeading c = true)
      (hback : ∀ c ∈ back, isWhitespace c = true) (hblank : unbroken back ≠ []) :
      BodyAlike (front ++ '/' :: '/' :: back)
  /-- A protocol behind a scheme, and an authority that is empty or blank. -/
  | scheme (front lead body back : Str) (hfirst : ¬ "://".toList <:+: front)
      (hfront : Scheme (cleaned front)) (hlead : ∀ c ∈ lead, isWhitespace c = true)
      (hback : ∀ c ∈ back, isBreak c = true) (hbody : Tight body)
      (hslash : ∀ c ∈ body.head?, c = '/') (hprotocol : ¬ "://".toList <:+: body) :
      BodyAlike (front ++ ':' :: '/' :: '/' :: (lead ++ (body ++ back)))
  /-- A protocol whose colon ends an authority. -/
  | colon (front name lead body back : Str) (hfirst : ¬ "://".toList <:+: front)
      (hfront : BehindScheme (cleaned front) ('/' :: '/' :: name)) (hname : '/' ∉ name)
      (hlead : ∀ c ∈ lead, isBreak c = true) (hback : ∀ c ∈ back, isBreak c = true)
      (hbody : Tight body) (hprotocol : ¬ "://".toList <:+: body) :
      BodyAlike (front ++ ':' :: '/' :: '/' :: (lead ++ (body ++ back)))
  /-- A protocol that stands in the path for `urlsplit`, as the first one. -/
  | inner (front rest start lead body back : Str) (hfirst : ¬ "://".toList <:+: front)
      (hfront : BehindScheme (cleaned front) rest) (hrest : BehindAuthority rest start)
      (hinner : ¬ "://".toList <:+: start)
      (hlead : ∀ c ∈ lead, isBreak c = true) (hback : ∀ c ∈ back, isBreak c = true)
      (hbody : Tight body) :
      BodyAlike (front ++ ':' :: '/' :: '/' :: (lead ++ (body ++ back)))

/-! ### Protocols -/

theorem stripProtocol_first (s t : Str) (h : ¬ "://".toList <:+: s) :
    stripProtocol (s ++ ':' :: '/' :: '/' :: t) = t := by
  suffices hsplit : splitOnce (s ++ ':' :: '/' :: '/' :: t) "://".toList = some (s, t) by
    rw [stripProtocol, hsplit]
  induction s with
  | nil => rfl
  | cons c s ih =>
    rw [List.infix_cons_iff, not_or] at h
    have hnot : ¬ "://".toList <+: c :: s ++ ':' :: '/' :: '/' :: t := by
      intro hprefix
      obtain ⟨rest, hrest⟩ := (show [':', '/', '/'] <+: _ from hprefix)
      rcases s with _ | ⟨d, _ | ⟨e, s⟩⟩
      · exact absurd (List.cons.inj (List.cons.inj hrest).2).1 (by decide)
      · exact absurd (List.cons.inj (List.cons.inj (List.cons.inj hrest).2).2).1 (by decide)
      · obtain ⟨rfl, hsecond⟩ := List.cons.inj hrest
        obtain ⟨rfl, hthird⟩ := List.cons.inj hsecond
        obtain ⟨rfl, _⟩ := List.cons.inj hthird
        exact h.1 ⟨s, rfl⟩
    rw [List.cons_append] at hnot ⊢
    rw [splitOnce, if_neg (by simpa using hnot), ih h.2]
    rfl

/-- Where a text has a protocol, it is cut at the first one, whatever stands behind the text. -/
theorem protocol_cut (text : Str) (h : "://".toList <:+: text) :
    ∃ front rest, text = front ++ ':' :: '/' :: '/' :: rest ∧ ¬ "://".toList <:+: front ∧
      ∀ tail, stripProtocol (text ++ tail) = rest ++ tail := by
  cases hsplit : splitOnce text "://".toList with
  | none => exact absurd h ((splitOnce_eq_none_iff text _ (by decide)).mp hsplit)
  | some p =>
    have htext := splitOnce_eq_some text "://".toList p.1 p.2 hsplit
    refine ⟨p.1, p.2, by rw [htext, List.append_assoc]; rfl,
      splitOnce_before text _ p.1 p.2 (by decide) hsplit, fun tail => ?_⟩
    rw [stripProtocol, splitOnce_append_right text tail _ p.1 p.2 hsplit (by decide)]

/-! ### Counting -/

/-- A character that is no slash and that no parser takes for a blank. -/
def isVisible (c : Char) : Bool := c ≠ '/' && !isWhitespace c

def visible (text : Str) : Nat := text.countP isVisible

/-- The number of characters that are no slashes. -/
def solid (text : Str) : Nat := (text.filter fun c => c ≠ '/').length

theorem filter_of_names (s t : Str) (h : namesOf s = namesOf t) :
    (s.filter fun c => c ≠ '/') = t.filter fun c => c ≠ '/' := by
  rw [← flatten_namesOf, h, flatten_namesOf]

theorem visible_eq (text : Str) :
    visible text = (text.filter fun c => c ≠ '/').countP fun c => !isWhitespace c := by
  rw [List.countP_filter]
  exact List.countP_congr fun c _ => by rw [isVisible, Bool.and_comm]

theorem visible_of_names (s t : Str) (h : namesOf s = namesOf t) : visible s = visible t := by
  rw [visible_eq, filter_of_names s t h, visible_eq]

theorem solid_of_names (s t : Str) (h : namesOf s = namesOf t) : solid s = solid t := by
  rw [solid, filter_of_names s t h, solid]

theorem visible_append (s t : Str) : visible (s ++ t) = visible s + visible t :=
  List.countP_append

theorem solid_append (s t : Str) : solid (s ++ t) = solid s + solid t := by
  rw [solid, List.filter_append, List.length_append, solid, solid]

theorem visible_cons (c : Char) (t : Str) (h : isVisible c = true) :
    visible (c :: t) = visible t + 1 := List.countP_cons_of_pos h

theorem visible_blank (text : Str) (h : ∀ c ∈ text, isWhitespace c = true) :
    visible text = 0 := by
  rw [visible, List.countP_eq_zero]
  intro c hc
  simp [isVisible, h c hc]

theorem visible_suffix (s t : Str) (h : s <:+ t) : visible s ≤ visible t :=
  h.sublist.countP_le

theorem blank_char (c : Char) (h : isWhitespace c = true) :
    c ≠ '/' ∧ c ≠ ':' ∧ isMark c = false := by
  refine ⟨?_, ?_, not_isMark isWhitespace (by decide) c h⟩
  · rintro rfl
    exact absurd h (by decide)
  · rintro rfl
    exact absurd h (by decide)

theorem blank_unbroken (text : Str) (h : ∀ c ∈ text, isWhitespace c = true) :
    ∀ c ∈ unbroken text, isWhitespace c = true := fun c hc => h c (List.mem_filter.mp hc).1

theorem slash_not_blank (text : Str) (h : ∀ c ∈ text, isWhitespace c = true) : '/' ∉ text :=
  fun hmem => absurd (h _ hmem) (by decide)

theorem solid_blank (text : Str) (h : ∀ c ∈ text, isWhitespace c = true) :
    solid text = text.length := by
  have hslash := slash_not_blank text h
  rw [solid, List.filter_eq_self.mpr]
  intro c hc
  simpa using fun heq : c = '/' => hslash (heq ▸ hc)

theorem visible_unbroken (text : Str) : visible (unbroken text) = visible text := by
  rw [visible, unbroken, List.countP_filter]
  refine List.countP_congr fun c _ => ?_
  cases hb : isBreak c with
  | false => simp
  | true => simp [isVisible, (isBreak_isLeading c hb).2]

theorem visible_cleaned (text : Str) : visible (cleaned text) ≤ visible text := by
  rw [cleaned, visible_unbroken]
  exact visible_suffix _ _ (List.dropWhile_suffix _)

theorem breaks_of_unbroken (text : Str) (h : (unbroken text).length = 0) :
    ∀ c ∈ text, isBreak c = true := by
  have hnil := List.filter_eq_nil_iff.mp (List.length_eq_zero_iff.mp h)
  exact fun c hc => by simpa using hnil c hc

/- Blanks around a text add names or change one, if `urlsplit` leaves them there. -/
theorem breaks_around (lead body back : Str) (hlead : ∀ c ∈ lead, isWhitespace c = true)
    (hback : ∀ c ∈ back, isWhitespace c = true)
    (h : namesOf (unbroken lead ++ (body ++ unbroken back)) = namesOf body) :
    (∀ c ∈ lead, isBreak c = true) ∧ ∀ c ∈ back, isBreak c = true := by
  have hsolid := solid_of_names _ _ h
  rw [solid_append, solid_append, solid_blank _ (blank_unbroken lead hlead),
    solid_blank _ (blank_unbroken back hback)] at hsolid
  exact ⟨breaks_of_unbroken lead (by omega), breaks_of_unbroken back (by omega)⟩

/-! ### The front of a text with a protocol -/

theorem append_colon_eq (front scheme rest more : Str) (hscheme : ':' ∉ scheme)
    (h : front ++ ':' :: rest = scheme ++ ':' :: more) :
    front = scheme ∨ ∃ behind, front = scheme ++ ':' :: behind := by
  rcases List.append_eq_append_iff.mp h with ⟨middle, hmiddle, hrest⟩ | ⟨middle, hmiddle, hrest⟩
  · cases middle with
    | nil => exact .inl (by rw [hmiddle, List.append_nil])
    | cons c middle =>
      obtain ⟨rfl, _⟩ := List.cons.inj hrest
      exact absurd (by rw [hmiddle]; simp) hscheme
  · cases middle with
    | nil => exact .inl (by rw [hmiddle, List.append_nil])
    | cons c middle =>
      obtain ⟨rfl, _⟩ := List.cons.inj hrest
      exact .inr ⟨middle, hmiddle⟩

theorem exists_behindScheme (front : Str) (hfront : ¬ Scheme front) :
    ∃ rest, BehindScheme front rest := by
  by_cases hinside : ∃ scheme rest, Scheme scheme ∧ front = scheme ++ ':' :: rest
  · obtain ⟨scheme, rest, hscheme, heq⟩ := hinside
    exact ⟨rest, .inl ⟨scheme, hscheme, heq⟩⟩
  · refine ⟨front, .inr ⟨rfl, fun scheme more hscheme heq => ?_⟩⟩
    rcases append_colon_eq front scheme [] more (scheme_no_colon scheme hscheme) heq with
      rfl | ⟨behind, hbehind⟩
    · exact hfront hscheme
    · exact hinside ⟨scheme, behind, hscheme, hbehind⟩

theorem splitScheme_behind (front rest t : Str) (h : BehindScheme front rest) :
    (splitScheme (front ++ ':' :: t)).2 = rest ++ ':' :: t := by
  rcases h with ⟨scheme, hscheme, rfl⟩ | ⟨rfl, hnone⟩
  · rw [List.append_assoc, List.cons_append, splitScheme_of_scheme _ _ hscheme]
  · refine splitScheme_of_none _ fun scheme more hscheme heq => ?_
    rcases append_colon_eq rest scheme t more (scheme_no_colon scheme hscheme) heq with
      rfl | ⟨behind, hbehind⟩
    · exact hnone rest [] hscheme rfl
    · exact hnone scheme (behind ++ [':']) hscheme (by rw [hbehind]; simp)

theorem behindScheme_suffix (front rest : Str) (h : BehindScheme front rest) : rest <:+ front := by
  rcases h with ⟨scheme, _, rfl⟩ | ⟨rfl, _⟩
  · exact (List.suffix_cons _ _).trans (List.suffix_append _ _)
  · exact List.suffix_rfl

section
variable (front : Str) (hfront : ∀ c ∈ front, isMark c = false)

theorem cleaned_protocol (t : Str) : cleaned (front ++ ':' :: '/' :: '/' :: t) =
    cleaned front ++ ':' :: '/' :: '/' :: unbroken t := by
  rw [cleaned_append front ':' _ (by decide), unbroken_cons '/' _ (by decide),
    unbroken_cons '/' _ (by decide)]

/- The scheme is the whole front: the slashes begin the authority. -/
theorem urlPath_scheme (t name rest : Str) (hscheme : Scheme (cleaned front))
    (ht : unbroken t = name ++ rest) (hname : ∀ c ∈ name, c ≠ '/' ∧ isMark c = false)
    (hrest : ∀ c ∈ rest.head?, c = '/') :
    urlPath (front ++ ':' :: '/' :: '/' :: t) = rest := by
  rw [urlPath, cleaned_protocol, splitScheme_of_scheme _ _ hscheme, ht,
    splitNetloc_authority name rest hname hrest]

include hfront

theorem urlPath_colon (t name : Str) (hbehind : BehindScheme (cleaned front) ('/' :: '/' :: name))
    (hname : '/' ∉ name) :
    urlPath (front ++ ':' :: '/' :: '/' :: t) = '/' :: '/' :: unbroken t := by
  have hauthority : ∀ c ∈ name ++ [':'], c ≠ '/' ∧ isMark c = false := by
    intro c hc
    rcases List.mem_append.mp hc with hc | hc
    · refine ⟨fun heq => hname (heq ▸ hc), hfront c (mem_of_mem_cleaned _ _ ?_)⟩
      exact (behindScheme_suffix _ _ hbehind).mem (by simp [hc])
    · rw [List.mem_singleton.mp hc]
      decide
  have hsplit := splitNetloc_authority (name ++ [':']) ('/' :: '/' :: unbroken t) hauthority
    fun c hc => (Option.some.inj hc).symm
  rw [List.append_assoc] at hsplit
  rw [urlPath, cleaned_protocol, splitScheme_behind _ _ _ hbehind]
  exact congrArg Prod.snd hsplit

theorem urlPath_inner (t rest start : Str) (hbehind : BehindScheme (cleaned front) rest)
    (hstart : BehindAuthority rest start) :
    urlPath (front ++ ':' :: '/' :: '/' :: t) = start ++ ':' :: '/' :: '/' :: unbroken t := by
  rw [urlPath, cleaned_protocol, splitScheme_behind _ _ _ hbehind]
  rcases hstart with ⟨rfl, hnot⟩ | ⟨name, more, hname, rfl, rfl⟩
  · refine congrArg Prod.snd (splitNetloc_of_not _ fun hprefix => hnot ?_)
    exact (prefix_append_cons_iff "//".toList start _ ':' (by decide)).mp hprefix
  · have hauthority : ∀ c ∈ name, c ≠ '/' ∧ isMark c = false := by
      refine fun c hc => ⟨fun heq => hname (heq ▸ hc), hfront c (mem_of_mem_cleaned _ _ ?_)⟩
      exact (behindScheme_suffix _ _ hbehind).mem (by simp [hc])
    have hsplit := splitNetloc_authority name ('/' :: more ++ ':' :: '/' :: '/' :: unbroken t)
      hauthority fun c hc => (Option.some.inj hc).symm
    rw [← List.append_assoc] at hsplit
    exact congrArg Prod.snd hsplit

end

end FsspecDb.Ddl
