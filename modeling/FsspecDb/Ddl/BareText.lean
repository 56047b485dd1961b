import FsspecDb.Ddl.ProtocolText

/-!
# Texts without a protocol

Here `urlsplit` must see neither a scheme nor an authority, or an authority of blanks
that blanks at the end make up for.
-/

namespace FsspecDb.Ddl
open Text

theorem stripProtocol_no_colon (text : Str) (h : ':' ∉ text) : stripProtocol text = text :=
  stripProtocol_unchanged text fun hoccurs => h (hoccurs.mem (by decide))

theorem slash_no_scheme (text scheme rest : Str) (hscheme : Scheme scheme) :
    '/' :: text ≠ scheme ++ ':' :: rest := by
  intro heq
  have hchars := mark_not_mem_scheme scheme hscheme
  obtain ⟨c, more, rfl, _⟩ := hscheme
  rw [List.cons_append] at heq
  exact (hchars c (by simp)).1 (List.cons.inj heq).1.symm

theorem cleaned_cons (c : Char) (text : Str) (hc : isLeading c = false) :
    cleaned (c :: text) = c :: unbroken text := cleaned_append [] c text hc

/-! ### The same name again and again -/

section
variable (name : Str) (hne : name ≠ []) (hslash : '/' ∉ name)

/- The name behind a slash each, and once more. -/
theorem repeated_eq (count : Nat) : (List.replicate count (name ++ ['/'])).flatten ++ name =
    ['/'].intercalate (List.replicate (count + 1) name) := by
  induction count with
  | zero => simp [List.intercalate]
  | succ count ih =>
    rw [List.replicate_succ, List.flatten_cons, List.append_assoc, ih,
      List.replicate_succ (n := count + 1), List.replicate_succ (n := count),
      List.intercalate_cons_cons, List.append_assoc]

include hne hslash

theorem namesOf_repeated (count : Nat) (rest : Str) :
    namesOf ((List.replicate count (name ++ ['/'])).flatten ++ rest) =
      List.replicate count name ++ namesOf rest := by
  induction count with
  | zero => rfl
  | succ count ih =>
    rw [List.replicate_succ, List.flatten_cons, List.append_assoc, List.append_assoc,
      List.singleton_append, namesOf_append, namesOf_name name hne hslash, ih,
      List.replicate_succ]
    rfl

omit hne hslash in
theorem mem_repeated (slashes : Str) (hslashes : ∀ c ∈ slashes, c = '/') (count : Nat) (c : Char)
    (h : c ∈ slashes ++ (List.replicate count (name ++ ['/'])).flatten) :
    c ∈ name ∨ c = '/' := by
  rw [List.mem_append, List.mem_flatten] at h
  rcases h with h | ⟨part, hpart, h⟩
  · exact .inr (hslashes c h)
  · rw [List.eq_of_mem_replicate hpart, List.mem_append, List.mem_singleton] at h
    exact h

omit hne hslash in
theorem last_repeated (slashes : Str) (hslashes : ∀ c ∈ slashes, c = '/') (count : Nat) :
    ∀ c ∈ (slashes ++ (List.replicate count (name ++ ['/'])).flatten).getLast?, c = '/' := by
  intro c hc
  cases count with
  | zero =>
    rw [List.replicate_zero, List.flatten_nil, List.append_nil] at hc
    exact hslashes c (List.mem_of_mem_getLast? hc)
  | succ count =>
    rw [List.replicate_succ', List.flatten_append, List.flatten_singleton, ← List.append_assoc,
      ← List.append_assoc, List.getLast?_concat] at hc
    exact (Option.some.inj hc).symm

theorem piecesOf_repeated (slashes : Str) (hslashes : ∀ c ∈ slashes, c = '/') (count : Nat) :
    piecesOf (slashes ++ ((List.replicate count (name ++ ['/'])).flatten ++ name)) =
      List.replicate (count + 1) name := by
  have hchar (c : Char) (hc : c ∈ name) : (c == '/') = false := by
    simpa using fun heq : c = '/' => hslash (heq ▸ hc)
  have hends : strip (slashes ++ ((List.replicate count (name ++ ['/'])).flatten ++ name)) '/' =
      (List.replicate count (name ++ ['/'])).flatten ++ name := by
    have hdropped := ends_dropped (· == '/') slashes
      ((List.replicate count (name ++ ['/'])).flatten ++ name) []
      (fun c hc => by simpa using hslashes c hc) (by simp)
    rw [List.append_nil] at hdropped
    refine hdropped ?_ ?_
    · intro c hc
      cases count with
      | zero => exact hchar c (List.mem_of_mem_head? hc)
      | succ count =>
        rw [List.replicate_succ, List.flatten_cons, List.append_assoc, List.append_assoc,
          List.head?_append_of_ne_nil _ hne] at hc
        exact hchar c (List.mem_of_mem_head? hc)
    · intro c hc
      rw [List.getLast?_append_of_ne_nil _ hne] at hc
      exact hchar c (List.mem_of_mem_getLast? hc)
  rw [piecesOf, hends, if_neg (by simp [hne]), repeated_eq]
  exact List.splitOn_intercalate '/' (fun part hpart => (List.eq_of_mem_replicate hpart) ▸ hslash)
    (by simp)

end

/-- Where the authority is empty, the slashes before it are outer slashes. -/
theorem piecesOf_netloc (text : Str)
    (hauthority : ∀ c rest, text = '/' :: '/' :: c :: rest → c = '/') :
    piecesOf (splitNetloc text).2 = piecesOf text := by
  by_cases hslashes : "//".toList <+: text
  · obtain ⟨rest, rfl⟩ := hslashes
    have hrest : ∀ c ∈ rest.head?, c = '/' := by
      intro c hc
      cases rest with
      | nil => cases hc
      | cons d rest =>
        rw [← Option.some.inj hc]
        exact hauthority d rest rfl
    have hnetloc : splitNetloc ("//".toList ++ rest) = ([], rest) :=
      splitNetloc_authority [] rest (by simp) hrest
    rw [hnetloc]
    exact ((piecesOf_cons_slash _).trans (piecesOf_cons_slash _)).symm
  · rw [splitNetloc_of_not text hslashes]

/-! ### Reading the forms -/

section
variable (front : Str) (hfront : ∀ c ∈ front, isWhitespace c = true ∧ isLeading c = true)
include hfront

theorem bare_alike (body back : Str) (hback : ∀ c ∈ back, isBreak c = true) (hbody : Tight body)
    (hstart : ∀ c ∈ body.head?, isLeading c = false)
    (hprotocol : ¬ "://".toList <:+: front ++ (body ++ back))
    (hscheme : ∀ scheme rest, Scheme scheme → body ≠ scheme ++ ':' :: rest)
    (hauthority : ∀ c rest, body = '/' :: '/' :: c :: rest → c = '/') :
    nativeNames (front ++ (body ++ back)) = pythonPieces (front ++ (body ++ back)) := by
  have hcleaned : cleaned (front ++ (body ++ back)) = body := by
    rw [cleaned_leading front _ fun c hc => (hfront c hc).2]
    cases body with
    | nil =>
      have hnil : back.dropWhile isLeading = [] :=
        List.dropWhile_eq_nil_iff.mpr fun c hc => (isBreak_isLeading c (hback c hc)).1
      rw [List.nil_append, cleaned, hnil]
      rfl
    | cons c body =>
      have hrest : unbroken body = body :=
        unbroken_eq_self body fun d hd => hbody.whole d (by simp [hd])
      rw [List.cons_append, cleaned_cons c _ (hstart c rfl), unbroken_append, hrest,
        unbroken_breaks back hback, List.append_nil]
  have hinner : ¬ "://".toList <:+: body := fun hoccurs =>
    hprotocol (hoccurs.trans ((List.infix_append' [] body back).trans
      (List.suffix_append _ _).isInfix))
  have hpieces : piecesOf (stripProtocol (urlPath (front ++ (body ++ back)))) = piecesOf body := by
    rw [urlPath, hcleaned, splitScheme_of_none body hscheme]
    have hpath : ¬ "://".toList <:+: (splitNetloc body).2 := fun hoccurs =>
      hinner (hoccurs.trans (splitNetloc_suffix body).isInfix)
    rw [stripProtocol_unchanged _ hpath, piecesOf_netloc body hauthority]
  rw [pythonPieces, hpieces, tight_pieces body hbody, nativeNames,
    stripProtocol_unchanged _ hprotocol, componentsOf_eq,
    trim_between front body back (fun c hc => (hfront c hc).1)
      (isWhitespace_of_breaks back hback) hbody]

variable (back : Str) (hback : ∀ c ∈ back, isWhitespace c = true)
include hback

theorem onlyAuthority_alike :
    nativeNames (front ++ '/' :: '/' :: back) = pythonPieces (front ++ '/' :: '/' :: back) := by
  have hcolon : ':' ∉ front ++ '/' :: '/' :: back := by
    simp only [List.mem_append, List.mem_cons, not_or]
    exact ⟨fun h => (blank_char _ (hfront _ h).1).2.1 rfl, by decide, by decide,
      fun h => (blank_char _ (hback _ h)).2.1 rfl⟩
  have htrim : trim (front ++ '/' :: '/' :: back) = ['/', '/'] :=
    ends_dropped isWhitespace front ['/', '/'] back (fun c hc => (hfront c hc).1) hback
      (by rintro c ⟨⟩; decide) (by rintro c ⟨⟩; decide)
  have hcleaned : cleaned (front ++ '/' :: '/' :: back) = '/' :: '/' :: (unbroken back ++ []) := by
    rw [cleaned_leading front _ fun c hc => (hfront c hc).2, cleaned_cons '/' _ (by decide),
      unbroken_cons '/' _ (by decide), List.append_nil]
  have hpath : urlPath (front ++ '/' :: '/' :: back) = [] := by
    rw [urlPath, hcleaned, splitScheme_of_none _ (slash_no_scheme _),
      splitNetloc_authority (unbroken back) [] _ (by simp)]
    intro c hc
    have hblank := blank_char c (blank_unbroken back hback c hc)
    exact ⟨hblank.1, hblank.2.2⟩
  rw [nativeNames, stripProtocol_no_colon _ hcolon, componentsOf_eq, htrim, pythonPieces, hpath]
  rfl

section
variable (kept : Str) (hne : kept ≠ []) (hkept : ∀ c ∈ kept, c ∈ unbroken back ∨ c = '/')
include hne hkept

omit hfront hne in
theorem kept_char : ∀ c ∈ unbroken back ++ kept, isBreak c = false ∧ c ≠ ':' := by
  have hname : ∀ c ∈ unbroken back, isBreak c = false ∧ c ≠ ':' := fun c hc =>
    ⟨not_isBreak_of_mem back c hc, (blank_char c (blank_unbroken back hback c hc)).2.1⟩
  intro c hc
  rcases List.mem_append.mp hc with hc | hc
  · exact hname c hc
  · rcases hkept c hc with hc | rfl
    · exact hname c hc
    · decide

/- Rust takes the blanks at the end away. -/
theorem nativeNames_blanks (hlast : ∀ c ∈ kept.getLast?, c = '/') :
    nativeNames (front ++ '/' :: '/' :: (unbroken back ++ (kept ++ back))) =
      namesOf ('/' :: '/' :: (unbroken back ++ kept)) := by
  have htext : front ++ '/' :: '/' :: (unbroken back ++ (kept ++ back)) =
      front ++ (('/' :: '/' :: (unbroken back ++ kept)) ++ back) := by
    simp
  have hcolon : ':' ∉ front ++ (('/' :: '/' :: (unbroken back ++ kept)) ++ back) := by
    rw [List.mem_append, List.mem_append, List.mem_cons, List.mem_cons, not_or, not_or, not_or,
      not_or]
    exact ⟨fun h => (blank_char _ (hfront _ h).1).2.1 rfl, ⟨by decide, by decide,
      fun h => (kept_char back hback kept hkept _ h).2 rfl⟩,
      fun h => (blank_char _ (hback _ h)).2.1 rfl⟩
  have hstop : ∀ c ∈ ('/' :: '/' :: (unbroken back ++ kept)).getLast?, isWhitespace c = false := by
    intro c hc
    rw [← List.cons_append, ← List.cons_append, List.getLast?_append_of_ne_nil _ hne] at hc
    rw [hlast c hc]
    decide
  have htrim : trim (front ++ (('/' :: '/' :: (unbroken back ++ kept)) ++ back)) =
      '/' :: '/' :: (unbroken back ++ kept) :=
    ends_dropped isWhitespace front _ back (fun c hc => (hfront c hc).1) hback
      (by rintro c ⟨⟩; decide) hstop
  rw [htext, nativeNames, stripProtocol_no_colon _ hcolon, componentsOf_eq, htrim]

/- Python takes the authority away. -/
theorem pythonPieces_blanks (hhead : ∀ c ∈ kept.head?, c = '/') :
    pythonPieces (front ++ '/' :: '/' :: (unbroken back ++ (kept ++ back))) =
      piecesOf (kept ++ unbroken back) := by
  have hchar := kept_char back hback kept hkept
  have hname (c : Char) (hc : c ∈ unbroken back) : c ≠ '/' ∧ isMark c = false := by
    have hblank := blank_char c (blank_unbroken back hback c hc)
    exact ⟨hblank.1, hblank.2.2⟩
  have hwhole : unbroken (unbroken back ++ (kept ++ back)) =
      unbroken back ++ (kept ++ unbroken back) := by
    rw [← List.append_assoc, unbroken_append, unbroken_eq_self _ fun c hc => (hchar c hc).1,
      List.append_assoc]
  have hcleaned : cleaned (front ++ '/' :: '/' :: (unbroken back ++ (kept ++ back))) =
      '/' :: '/' :: (unbroken back ++ (kept ++ unbroken back)) := by
    rw [cleaned_leading front _ fun c hc => (hfront c hc).2, cleaned_cons '/' _ (by decide),
      unbroken_cons '/' _ (by decide), hwhole]
  have hslash : ∀ c ∈ (kept ++ unbroken back).head?, c = '/' := by
    rwa [List.head?_append_of_ne_nil _ hne]
  have hcolon : ':' ∉ kept ++ unbroken back := by
    rw [List.mem_append, not_or]
    exact ⟨fun h => (hchar _ (List.mem_append_right _ h)).2 rfl,
      fun h => (hchar _ (List.mem_append_left _ h)).2 rfl⟩
  rw [pythonPieces, urlPath, hcleaned, splitScheme_of_none _ (slash_no_scheme _),
    splitNetloc_authority (unbroken back) _ hname hslash, stripProtocol_no_colon _ hcolon]

end

/- The authority is lost to Python, the blanks at the end to Rust. -/
theorem blankAuthority_alike (slashes : Str) (count : Nat) (hblank : unbroken back ≠ [])
    (hslashes : slashes ≠ [] ∧ ∀ c ∈ slashes, c = '/') :
    nativeNames (front ++ '/' :: '/' :: (unbroken back ++ (slashes ++
        ((List.replicate count (unbroken back ++ ['/'])).flatten ++ back)))) =
      pythonPieces (front ++ '/' :: '/' :: (unbroken back ++ (slashes ++
        ((List.replicate count (unbroken back ++ ['/'])).flatten ++ back)))) := by
  have hslash : '/' ∉ unbroken back := slash_not_blank _ (blank_unbroken back hback)
  have hkept := mem_repeated (unbroken back) slashes hslashes.2 count
  have hlast := last_repeated (unbroken back) slashes hslashes.2 count
  have hpieces := piecesOf_repeated (unbroken back) hblank hslash slashes hslashes.2 count
  have hcount := namesOf_repeated (unbroken back) hblank hslash count []
  generalize (List.replicate count (unbroken back ++ ['/'])).flatten = repeated at *
  have hne : slashes ++ repeated ≠ [] := by simp [hslashes.1]
  have hhead : ∀ c ∈ (slashes ++ repeated).head?, c = '/' := by
    intro c hc
    rw [List.head?_append_of_ne_nil _ hslashes.1] at hc
    exact hslashes.2 c (List.mem_of_mem_head? hc)
  have hnames : namesOf ('/' :: '/' :: (unbroken back ++ (slashes ++ repeated))) =
      List.replicate (count + 1) (unbroken back) := by
    rw [List.append_nil] at hcount
    rw [namesOf_cons_slash, namesOf_cons_slash]
    cases hcons : slashes with
    | nil => exact absurd hcons hslashes.1
    | cons c more =>
      have hmore : ∀ d ∈ more, d = '/' := fun d hd => hslashes.2 d (by simp [hcons, hd])
      rw [hslashes.2 c (by simp [hcons]), List.cons_append, namesOf_append,
        namesOf_name _ hblank hslash, namesOf_slashes_append more _ hmore, hcount,
        List.replicate_succ]
      exact congrArg _ (List.append_nil _)
  have hnative := nativeNames_blanks front hfront back hback _ hne hkept hlast
  have hpython := pythonPieces_blanks front hfront back hback _ hne hkept hhead
  rw [List.append_assoc] at hnative hpython
  rw [hnative, hpython, hnames, List.append_assoc, hpieces]

end

end FsspecDb.Ddl
