import FsspecDb.Ddl.BareText

/-!
# The forms are all there are

Whatever `urlsplit` or `_parse_path` takes away has to be invisible, or the names differ.
-/

namespace FsspecDb.Ddl
open Text

/- Whoever loses the first of some names and gains a last one sees the same only if all are one. -/
theorem cons_eq_concat {α : Type} (x y : α) (items : List α) (h : x :: items = items ++ [y]) :
    x = y ∧ items = List.replicate items.length x := by
  induction items with
  | nil => exact ⟨(List.cons.inj h).1, rfl⟩
  | cons z items ih =>
    obtain ⟨rfl, hrest⟩ := List.cons.inj h
    obtain ⟨heq, hsame⟩ := ih hrest
    refine ⟨heq, ?_⟩
    rw [List.length_cons, List.replicate_succ, ← hsame]

section
variable (text lead body back : Str) (htext : text = lead ++ (body ++ back))
  (hlead : ∀ c ∈ lead, isWhitespace c = true) (hback : ∀ c ∈ back, isWhitespace c = true)
  (hwhole : ∀ c ∈ body, isBreak c = false)
include htext hlead hback hwhole

/- A blank at the start that is no control character stays, and so adds to the names. -/
theorem lead_leading
    (hnames : namesOf (splitNetloc (cleaned text)).2 = namesOf body) :
    ∀ c ∈ lead, isLeading c = true := by
  by_contra hnot
  have hne : lead.dropWhile isLeading ≠ [] := fun hnil =>
    hnot (List.dropWhile_eq_nil_iff.mp hnil)
  obtain ⟨c, more, hmore⟩ := List.exists_cons_of_ne_nil hne
  have hlead' : ∀ d ∈ c :: more, isWhitespace d = true := fun d hd =>
    hlead d ((List.dropWhile_sublist _).mem (hmore ▸ hd))
  have hc := head_dropWhile isLeading lead c (by rw [hmore]; rfl)
  have hkept := not_isBreak_of_not_leading c hc
  have hcleaned : cleaned text = unbroken (c :: more) ++ (body ++ unbroken back) := by
    have hlead := List.takeWhile_append_dropWhile (p := isLeading) (l := lead)
    rw [← unbroken_between _ _ _ hwhole, htext, ← hlead, hmore, List.append_assoc,
      cleaned_leading _ _ fun d hd => List.mem_takeWhile_imp hd, List.cons_append,
      cleaned_cons c _ hc, unbroken_cons c _ hkept]
  have hslashes : ¬ "//".toList <+: cleaned text := by
    intro hprefix
    obtain ⟨rest, hrest⟩ := (show ['/', '/'] <+: _ from hprefix)
    rw [hcleaned, unbroken_cons c _ hkept] at hrest
    exact (blank_char c (hlead' c (by simp))).1 (List.cons.inj hrest).1.symm
  rw [splitNetloc_of_not _ hslashes, hcleaned] at hnames
  have hbreak := (breaks_around (c :: more) body back hlead' hback hnames).1 c (by simp)
  rw [hkept] at hbreak
  cases hbreak

omit hback in
/- A control character at the start of the names is lost to Python. -/
theorem body_not_leading (hstart : ∀ c ∈ body.head?, isWhitespace c = false)
    (hleading : ∀ c ∈ lead, isLeading c = true) (hvisible : visible text ≤ visible (cleaned text)) :
    ∀ c ∈ body.head?, isLeading c = false := by
  intro c hc
  by_contra hnot
  rw [Bool.not_eq_false] at hnot
  cases body with
  | nil => cases hc
  | cons d body =>
    obtain rfl : d = c := Option.some.inj hc
    have hvisibleChar : isVisible d = true := by
      have hslash : d ≠ '/' := by
        rintro rfl
        exact absurd hnot (by decide)
      simp [isVisible, hslash, hstart d rfl]
    have hcleaned : cleaned text = cleaned (body ++ back) := by
      rw [htext, cleaned_leading lead _ hleading]
      exact cleaned_leading [d] _ (by simpa using hnot)
    have hle := visible_cleaned (body ++ back)
    have htotal := congrArg visible htext
    rw [visible_append, visible_blank lead hlead, List.cons_append,
      visible_cons d _ hvisibleChar] at htotal
    rw [hcleaned] at hvisible
    omega

omit hlead hback in
theorem cleaned_body (hleading : ∀ c ∈ lead, isLeading c = true) (hne : body ≠ [])
    (hstart : ∀ c ∈ body.head?, isLeading c = false) : cleaned text = body ++ unbroken back := by
  cases body with
  | nil => exact absurd rfl hne
  | cons c body =>
    have hrest : unbroken body = body :=
      unbroken_eq_self body fun d hd => hwhole d (by simp [hd])
    rw [htext, cleaned_leading lead _ hleading, List.cons_append, cleaned_cons c _ (hstart c rfl),
      unbroken_append, hrest, List.cons_append]

end

/-! ### An authority of blanks -/

section
variable (name middle blank : Str) (hne : name ≠ []) (hslash : '/' ∉ name)
  (hblank : blank ≠ []) (hblankSlash : '/' ∉ blank)
include hne hslash hblank hblankSlash

/- The names before and behind the text in the middle are one name, and it is all of that one. -/
theorem same_blank (hmiddle : ∀ c ∈ middle.head?, c = '/')
    (hnames : namesOf (middle ++ '/' :: blank) = namesOf (name ++ (middle ++ ['/']))) :
    blank = name ∧ ∃ count, namesOf middle = List.replicate count name := by
  have hbehind : namesOf (middle ++ ['/']) = namesOf middle :=
    namesOf_append_slashes middle ['/'] (by simp)
  have hbefore : namesOf (name ++ (middle ++ ['/'])) = name :: namesOf (middle ++ ['/']) := by
    have hstart : ∃ more, middle ++ ['/'] = '/' :: more := by
      cases middle with
      | nil => exact ⟨[], rfl⟩
      | cons c middle => exact ⟨middle ++ ['/'], by rw [hmiddle c rfl]; rfl⟩
    obtain ⟨more, hmore⟩ := hstart
    rw [hmore, namesOf_append, namesOf_name name hne hslash, namesOf_cons_slash]
    rfl
  rw [hbefore, hbehind, namesOf_append, namesOf_name blank hblank hblankSlash, eq_comm] at hnames
  obtain ⟨heq, hcount⟩ := cons_eq_concat name blank _ hnames
  exact ⟨heq.symm, _, hcount⟩

end

theorem strip_of_pieces (text : Str) (parts : List Str) (hne : parts ≠ [])
    (h : piecesOf text = parts) : strip text '/' = ['/'].intercalate parts := by
  rw [piecesOf] at h
  split at h
  · exact absurd h.symm hne
  · rw [← h, List.intercalate_splitOn]

/- All names are the blank one, so the text between the authority and the end is known. -/
theorem blank_middle (name middle : Str) (count : Nat) (hne : name ≠ []) (hslash : '/' ∉ name)
    (hhead : (middle ++ name).head? = some '/')
    (hpieces : piecesOf (middle ++ name) = List.replicate (count + 1) name) :
    ∃ slashes, slashes ≠ [] ∧ (∀ c ∈ slashes, c = '/') ∧
      middle = slashes ++ (List.replicate count (name ++ ['/'])).flatten := by
  have hstrip := strip_of_pieces _ _ (by simp) hpieces
  rw [← repeated_eq] at hstrip
  obtain ⟨before, after, htext, hbefore, hafter⟩ := strip_split (middle ++ name)
  rw [hstrip] at htext
  have hnone : after = [] := by
    by_contra hafterNe
    have hlast := congrArg List.getLast? htext
    rw [List.getLast?_append_of_ne_nil _ hne, ← List.append_assoc,
      List.getLast?_append_of_ne_nil _ hafterNe, List.getLast?_eq_some_getLast hafterNe,
      hafter _ (List.getLast_mem hafterNe)] at hlast
    exact hslash (List.mem_of_getLast? hlast)
  rw [hnone, List.append_nil] at htext
  refine ⟨before, ?_, hbefore, ?_⟩
  · rintro rfl
    rw [List.nil_append, repeated_eq] at htext
    have hstart : (['/'].intercalate (List.replicate (count + 1) name)).head? = name.head? := by
      cases count with
      | zero => simp [List.intercalate]
      | succ count =>
        rw [List.replicate_succ, List.replicate_succ, List.intercalate_cons_cons,
          List.append_assoc, List.head?_append_of_ne_nil _ hne]
    rw [htext, hstart] at hhead
    exact hslash (List.mem_of_mem_head? hhead)
  · rw [← List.append_assoc] at htext
    exact List.append_cancel_right htext

section
variable (body blank name rest : Str) (hblank : ∀ c ∈ blank, isWhitespace c = true)
  (hname : ∀ c ∈ name, isWhitespace c = true) (hnames : namesOf rest = namesOf body)
  (hcut : body ++ blank = '/' :: '/' :: (name ++ rest))
include hblank hname hnames hcut

/- The authority took as many characters as there are blanks at the end. -/
theorem length_authority : blank.length = name.length := by
  have hsolid := congrArg solid hcut
  have hslashes : solid ('/' :: '/' :: (name ++ rest)) = solid (name ++ rest) := rfl
  rw [hslashes, solid_append, solid_append, solid_blank blank hblank, solid_blank name hname,
    solid_of_names _ _ hnames] at hsolid
  omega

theorem blank_ne_nil (hnameNe : name ≠ []) : blank ≠ [] := by
  intro hnil
  have hlength := length_authority body blank name rest hblank hname hnames hcut
  rw [hnil, List.length_nil, eq_comm] at hlength
  exact hnameNe (List.length_eq_zero_iff.mp hlength)

omit hname in
/- The slashes before the authority are not blank, so they belong to what Rust keeps. -/
theorem body_slashes (hne : body ≠ []) :
    ∃ kept, body = '/' :: '/' :: kept ∧ kept ++ blank = name ++ rest := by
  have hslash := slash_not_blank blank hblank
  match body, hne with
  | [c], _ =>
    rw [List.singleton_append] at hcut
    obtain ⟨_, hblankSlash⟩ := List.cons.inj hcut
    exact absurd (by rw [hblankSlash]; simp) hslash
  | c :: d :: kept, _ =>
    obtain ⟨rfl, hsecond⟩ := List.cons.inj hcut
    obtain ⟨rfl, hkept⟩ := List.cons.inj hsecond
    exact ⟨kept, rfl, hkept⟩

omit hname in
/- A character that Rust keeps at the end is a slash, as blanks come last for Python. -/
theorem last_slash (kept : Str) (last : Char) (hbody : body = kept ++ [last])
    (hlast : isWhitespace last = false) (hne : blank ≠ [])
    (hrest : ∃ before, rest = before ++ blank) : last = '/' := by
  by_contra hslash
  obtain ⟨before, rfl⟩ := hrest
  have hfilter := congrArg List.getLast? (filter_of_names _ _ hnames)
  have hblankKept : (blank.filter fun c => c ≠ '/') = blank := by
    rw [List.filter_eq_self]
    intro c hc
    simpa using (blank_char c (hblank c hc)).1
  rw [hbody, List.filter_append, List.filter_append, hblankKept,
    List.getLast?_append_of_ne_nil _ hne,
    List.filter_cons_of_pos (by simpa using hslash), List.filter_nil, List.getLast?_concat]
    at hfilter
  rw [hblank last (List.mem_of_getLast? hfilter)] at hlast
  cases hlast

/-- What Rust keeps ends with a slash; without the authority it is what Python keeps. -/
theorem authority_ends (hne : body ≠ []) (hnameNe : name ≠ [])
    (hstop : ∀ c ∈ body.getLast?, isWhitespace c = false) :
    (body = ['/', '/'] ∧ blank = name) ∨
      ∃ middle, body = '/' :: '/' :: (name ++ (middle ++ ['/'])) ∧
        rest = middle ++ '/' :: blank := by
  have hlength := length_authority body blank name rest hblank hname hnames hcut
  obtain ⟨kept, hbody, hkept⟩ := body_slashes body blank name rest hblank hnames hcut hne
  by_cases hempty : kept = []
  · refine .inl ⟨by rw [hbody, hempty], ?_⟩
    rw [hempty, List.nil_append] at hkept
    have htotal := congrArg List.length hkept
    rw [List.length_append] at htotal
    have hrest : rest = [] := List.length_eq_zero_iff.mp (by omega)
    rw [hkept, hrest, List.append_nil]
  · obtain ⟨front, last, hfront⟩ := List.eq_nil_or_concat' kept |>.resolve_left hempty
    have hlastBlank : isWhitespace last = false := by
      refine hstop last ?_
      rw [hbody, hfront]
      exact List.getLast?_concat (l := '/' :: '/' :: front)
    have hlastName : last ∉ name := fun hmem => by
      rw [hname last hmem] at hlastBlank
      cases hlastBlank
    rcases List.append_eq_append_iff.mp hkept with ⟨more, hmore, _⟩ | ⟨more, hmore, hrest⟩
    · exact absurd (by rw [hmore, hfront]; simp) hlastName
    · have hmoreNe : more ≠ [] := by
        rintro rfl
        rw [List.append_nil] at hmore
        exact hlastName (by rw [← hmore, hfront]; simp)
      obtain ⟨middle, last', hmiddle⟩ := List.eq_nil_or_concat' more |>.resolve_left hmoreNe
      have hsame : last' = last := by
        rw [hfront, hmiddle, ← List.append_assoc] at hmore
        exact (List.cons.inj (List.append_inj' hmore rfl).2).1.symm
      have hblankNe := blank_ne_nil body blank name rest hblank hname hnames hcut hnameNe
      have hslash := last_slash body blank name rest hblank hnames hcut ('/' :: '/' :: front) last
        (by rw [hbody, hfront]; rfl) hlastBlank hblankNe ⟨more, hrest⟩
      rw [hsame, hslash] at hmiddle
      refine .inr ⟨middle, by rw [hbody, hmore, hmiddle], ?_⟩
      rw [hrest, hmiddle, List.append_assoc]
      rfl

end

section
variable (text lead body back name rest : Str) (htext : text = lead ++ (body ++ back))
  (hlead : ∀ c ∈ lead, isWhitespace c = true ∧ isLeading c = true)
  (hback : ∀ c ∈ back, isWhitespace c = true)
include htext hlead hback

theorem blank_form (hne : body ≠ []) (hstop : ∀ c ∈ body.getLast?, isWhitespace c = false)
    (hcut : body ++ unbroken back = '/' :: '/' :: (name ++ rest)) (hnameNe : name ≠ [])
    (hname : ∀ c ∈ name, isWhitespace c = true) (hrest : ∀ c ∈ rest.head?, c = '/')
    (hpieces : piecesOf rest = namesOf body) : BodyAlike text := by
  have hblank := blank_unbroken back hback
  have hslash := slash_not_blank name hname
  have hnames := ((piecesOf_eq_iff rest body).mp hpieces).1
  rcases authority_ends body (unbroken back) name rest hblank hname hnames hcut hne hnameNe hstop
    with ⟨hbody, hsame⟩ | ⟨middle, hbody, hmiddle⟩
  · have hform := BodyAlike.onlyAuthority lead back hlead hback (by rw [hsame]; exact hnameNe)
    rwa [htext, hbody]
  · have hhead : ∀ c ∈ middle.head?, c = '/' := by
      intro c hc
      refine hrest c ?_
      cases middle with
      | nil => cases hc
      | cons d middle => rwa [hmiddle]
    have hrepeat : namesOf (middle ++ '/' :: unbroken back) =
        namesOf (name ++ (middle ++ ['/'])) := by
      rw [← hmiddle, hnames, hbody, namesOf_cons_slash, namesOf_cons_slash]
    have hblankNe := blank_ne_nil body (unbroken back) name rest hblank hname hnames hcut hnameNe
    obtain ⟨hsame, count, hcount⟩ := same_blank name middle (unbroken back) hnameNe hslash
      hblankNe (slash_not_blank _ hblank) hhead hrepeat
    have hall : piecesOf ((middle ++ ['/']) ++ name) = List.replicate (count + 1) name := by
      have hkept : (middle ++ ['/']) ++ name = rest := by
        rw [hmiddle, hsame, List.append_assoc]
        rfl
      rw [hkept, hpieces, ← hnames, hmiddle, namesOf_append, hcount, hsame,
        namesOf_name name hnameNe hslash, List.replicate_succ']
    have hstart : ((middle ++ ['/']) ++ name).head? = some '/' := by
      cases middle with
      | nil => rfl
      | cons c middle => rw [hhead c rfl]; rfl
    obtain ⟨slashes, hslashesNe, hslashes, hflat⟩ :=
      blank_middle name (middle ++ ['/']) count hnameNe hslash hstart hall
    have hform := BodyAlike.blankAuthority lead slashes back count hlead hback hblankNe
      ⟨hslashesNe, hslashes⟩
    rw [hsame] at hform
    rw [htext, hbody, hflat]
    simpa only [List.append_assoc, List.cons_append] using hform

end

/-! ### All forms -/

theorem bare_form (text : Str) (hmarks : ∀ c ∈ text, isMark c = false)
    (hprotocol : ¬ "://".toList <:+: text) (halike : nativeNames text = pythonPieces text) :
    BodyAlike text := by
  rw [nativeNames, stripProtocol_unchanged text hprotocol, componentsOf_eq, pythonPieces,
    eq_comm] at halike
  have hvisible := visible_of_names _ _ ((piecesOf_eq_iff _ _).mp halike).1
  rw [visible_trim] at hvisible
  have hnetloc : visible (urlPath text) ≤ visible (splitScheme (cleaned text)).2 :=
    visible_suffix _ _ (splitNetloc_suffix _)
  have hafter := visible_suffix _ _ (splitScheme_suffix (cleaned text))
  have hcleaned := visible_cleaned text
  have hstripped := visible_suffix _ _ (stripProtocol_suffix (urlPath text))
  have hkeeps : visible text ≤ visible (cleaned text) := by omega
  -- neither a protocol nor a scheme was taken away: their colons are visible
  have hinner : ¬ "://".toList <:+: urlPath text := by
    intro hoccurs
    have hless := visible_stripProtocol _ hoccurs
    omega
  have hscheme : ∀ scheme rest, Scheme scheme → cleaned text ≠ scheme ++ ':' :: rest := by
    intro scheme rest hs heq
    have htotal := congrArg visible heq
    rw [visible_append, visible_cons ':' rest (by decide)] at htotal
    rw [heq, splitScheme_of_scheme scheme rest hs] at hnetloc
    omega
  have hpath : urlPath text = (splitNetloc (cleaned text)).2 := by
    rw [urlPath, splitScheme_of_none _ hscheme]
  rw [stripProtocol_unchanged _ hinner, hpath] at halike hvisible
  have hnames := ((piecesOf_eq_iff _ _).mp halike).1
  obtain ⟨lead, back, htext, hlead, hback⟩ := ends_split isWhitespace text
  obtain ⟨hstart, hstop⟩ := ends_kept isWhitespace text
  rw [← trim] at htext hstart hstop
  have hwhole := whole_of_names (trim text) _ hnames fun c hc =>
    not_isBreak_of_mem _ c ((splitNetloc_suffix _).mem hc)
  by_cases hempty : trim text = []
  · rw [hempty] at hnames
    have hblank : ∀ c ∈ text, isWhitespace c = true := by
      rw [htext, hempty, List.nil_append]
      exact List.forall_mem_append.mpr ⟨hlead, hback⟩
    have hleading := lead_leading text text [] [] (by simp) hblank (by simp) (by simp) hnames
    have hform := BodyAlike.bare text [] [] (fun c hc => ⟨hblank c hc, hleading c hc⟩) (by simp)
      tight_nil (by simp) (by simpa using hprotocol) (by simp) (by simp)
    simpa using hform
  · have hleading := lead_leading text lead _ back htext hlead hback hwhole hnames
    have hbody := body_not_leading text lead _ back htext hlead hwhole hstart hleading hkeeps
    have hkept := cleaned_body text lead _ back htext hwhole hleading hempty hbody
    have hfront : ∀ c ∈ lead, isWhitespace c = true ∧ isLeading c = true := fun c hc =>
      ⟨hlead c hc, hleading c hc⟩
    by_cases hauthority : ∀ c rest, cleaned text = '/' :: '/' :: c :: rest → c = '/'
    · rw [piecesOf_netloc _ hauthority, hkept] at halike
      obtain ⟨hnames, hsingle⟩ := (piecesOf_eq_iff _ _).mp halike
      have hbackBreaks := (breaks_around [] (trim text) back (by simp) hback hnames).2
      rw [unbroken_breaks back hbackBreaks, List.append_nil] at hkept hsingle
      rw [hkept] at hscheme hauthority
      have hform := BodyAlike.bare lead (trim text) back hfront hbackBreaks
        ⟨hstart, hstop, hwhole, hsingle⟩ hbody (by rwa [← htext]) hscheme hauthority
      rwa [← htext] at hform
    · simp only [not_forall] at hauthority
      obtain ⟨c, rest, hcut, hc⟩ := hauthority
      have hsplit := List.takeWhile_append_dropWhile (p := fun c => c ≠ '/') (l := c :: rest)
      generalize hname : (c :: rest).takeWhile (fun c => c ≠ '/') = name at hsplit
      generalize hrest : (c :: rest).dropWhile (fun c => c ≠ '/') = behind at hsplit
      have hnameNe : name ≠ [] := by
        rw [← hname, List.takeWhile_cons_of_pos (by simpa using hc)]
        simp
      have hslash : ∀ d ∈ name, d ≠ '/' := by
        intro d hd
        rw [← hname] at hd
        simpa using List.mem_takeWhile_imp hd
      have hbehind : ∀ d ∈ behind.head?, d = '/' := by
        intro d hd
        simpa using head_dropWhile (fun c => c ≠ '/') (c :: rest) d (by rwa [hrest])
      rw [← hsplit] at hcut
      have hmem : ∀ d ∈ name, d ∈ text := fun d hd =>
        mem_of_mem_cleaned text d (by rw [hcut]; simp [hd])
      have hnetloc := splitNetloc_authority name behind
        (fun d hd => ⟨hslash d hd, hmarks d (hmem d hd)⟩) hbehind
      rw [hcut, hnetloc] at halike hvisible
      have htotal := congrArg visible hcut
      have hslashes : visible ('/' :: '/' :: (name ++ behind)) = visible (name ++ behind) := rfl
      rw [hslashes, visible_append] at htotal
      have hinvisible : visible name = 0 := by
        dsimp only at hvisible
        omega
      have hblank : ∀ d ∈ name, isWhitespace d = true := by
        intro d hd
        have hnot := List.countP_eq_zero.mp hinvisible d hd
        simpa [isVisible, hslash d hd] using hnot
      exact blank_form text lead (trim text) back name behind htext hfront hback hempty hstop
        (hkept ▸ hcut) hnameNe hblank hbehind halike

/-- In a text without marks, the two parsers see the same names exactly in these forms. -/
theorem names_agree_iff (text : Str) (hmarks : ∀ c ∈ text, isMark c = false) :
    nativeNames text = pythonPieces text ↔ BodyAlike text := by
  constructor
  · intro halike
    by_cases hprotocol : "://".toList <:+: text
    · obtain ⟨front, rest, rfl, hfirst, _⟩ := protocol_cut text hprotocol
      exact protocol_form front hfirst rest halike (fun c hc => hmarks c (by simp [hc]))
        fun c hc => hmarks c (by simp [hc])
    · exact bare_form text hmarks hprotocol halike
  · intro hform
    cases hform with
    | bare front body back hfront hback hbody hstart hprotocol hscheme hauthority =>
      exact bare_alike front hfront body back hback hbody hstart hprotocol hscheme hauthority
    | blankAuthority front slashes back count hfront hback hblank hslashes =>
      exact blankAuthority_alike front hfront back hback slashes count hblank hslashes
    | onlyAuthority front back hfront hback hblank =>
      exact onlyAuthority_alike front hfront back hback
    | scheme front lead body back hfirst hfront hlead hback hbody hslash hprotocol =>
      exact scheme_alike front hfirst lead body back hfront hlead hback hbody hslash hprotocol
    | colon front name lead body back hfirst hfront hname hlead hback hbody hprotocol =>
      exact colon_alike front hfirst (fun c hc => hmarks c (by simp [hc])) lead body back hlead
        hback hbody name hfront hname hprotocol
    | inner front rest start lead body back hfirst hfront hrest hinner hlead hback hbody =>
      exact inner_alike front hfirst (fun c hc => hmarks c (by simp [hc])) lead body back hlead
        hback hbody rest start hfront hrest hinner

end FsspecDb.Ddl
