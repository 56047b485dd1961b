import FsspecDb.Ddl.BodyText

/-!
# Texts with a protocol

Both parsers see the same names behind the first protocol exactly if `urlsplit` cuts there
too, and the text behind it is one that is read alike.
-/

namespace FsspecDb.Ddl
open Text

theorem stripProtocol_suffix (text : Str) : stripProtocol text <:+ text := by
  unfold stripProtocol
  cases hsplit : splitOnce text "://".toList with
  | none => exact List.suffix_rfl
  | some p =>
    rw [splitOnce_eq_some text _ p.1 p.2 hsplit]
    exact List.suffix_append _ _

/- A protocol that is stripped takes its colon along. -/
theorem visible_stripProtocol (text : Str) (h : "://".toList <:+: text) :
    visible (stripProtocol text) < visible text := by
  obtain ⟨before, rest, htext, _, hcut⟩ := protocol_cut text h
  have hstrip := hcut []
  rw [List.append_nil, List.append_nil] at hstrip
  have hcolon := visible_cons ':' ('/' :: '/' :: rest) (by decide)
  have hrest := visible_suffix rest ('/' :: '/' :: rest)
    ((List.suffix_cons _ _).trans (List.suffix_cons _ _))
  have htotal := visible_append before (':' :: '/' :: '/' :: rest)
  rw [← htext] at htotal
  rw [hstrip]
  omega

theorem tight_nil : Tight [] := ⟨by simp, by simp, by simp, by decide⟩

theorem tight_pieces (body : Str) (h : Tight body) : piecesOf body = namesOf body :=
  (piecesOf_eq_iff body body).mpr ⟨rfl, h.single⟩

theorem isWhitespace_of_breaks (text : Str) (h : ∀ c ∈ text, isBreak c = true) :
    ∀ c ∈ text, isWhitespace c = true := fun c hc => (isBreak_isLeading c (h c hc)).2

theorem trim_between (lead body back : Str) (hlead : ∀ c ∈ lead, isWhitespace c = true)
    (hback : ∀ c ∈ back, isWhitespace c = true) (hbody : Tight body) :
    trim (lead ++ (body ++ back)) = body :=
  ends_dropped isWhitespace lead body back hlead hback hbody.start hbody.stop

theorem unbroken_between (lead body back : Str) (hbody : ∀ c ∈ body, isBreak c = false) :
    unbroken (lead ++ (body ++ back)) = unbroken lead ++ (body ++ unbroken back) := by
  rw [unbroken_append, unbroken_append, unbroken_eq_self body hbody]

theorem visible_trim (text : Str) : visible (trim text) = visible text := by
  obtain ⟨lead, back, htext, hlead, hback⟩ := ends_split isWhitespace text
  have hvisible := congrArg visible htext
  rw [visible_append, visible_append, visible_blank lead hlead, visible_blank back hback]
    at hvisible
  rw [trim]
  omega

/- What Python kept has no tab and no line end, so neither have the names. -/
theorem whole_of_names (text kept : Str) (h : namesOf kept = namesOf text)
    (hkept : ∀ c ∈ kept, isBreak c = false) : ∀ c ∈ text, isBreak c = false := by
  intro c hc
  by_cases hslash : c = '/'
  · rw [hslash]
    decide
  · have hfilter : c ∈ text.filter fun c => c ≠ '/' := List.mem_filter.mpr ⟨hc, by simpa⟩
    rw [← filter_of_names kept text h] at hfilter
    exact hkept c (List.mem_filter.mp hfilter).1

/-! ### The text behind the protocol -/

/-- Where Python only takes tabs and line ends away, they may stand at the ends. -/
theorem tight_of_pieces (text : Str) (h : piecesOf (unbroken text) = namesOf (trim text)) :
    unbroken text = trim text ∧ Tight (trim text) ∧ ∃ lead back,
      text = lead ++ (trim text ++ back) ∧ (∀ c ∈ lead, isBreak c = true) ∧
        ∀ c ∈ back, isBreak c = true := by
  obtain ⟨hnames, hsingle⟩ := (piecesOf_eq_iff _ _).mp h
  obtain ⟨lead, back, htext, hlead, hback⟩ := ends_split isWhitespace text
  obtain ⟨hstart, hstop⟩ := ends_kept isWhitespace text
  rw [← trim] at htext
  have hwhole := whole_of_names (trim text) (unbroken text) hnames fun c hc =>
    not_isBreak_of_mem text c hc
  have hunbroken := unbroken_between lead (trim text) back hwhole
  rw [← htext] at hunbroken
  rw [hunbroken] at hnames
  obtain ⟨hleadBreaks, hbackBreaks⟩ := breaks_around lead _ back hlead hback hnames
  rw [unbroken_breaks lead hleadBreaks, unbroken_breaks back hbackBreaks, List.nil_append,
    List.append_nil] at hunbroken
  rw [hunbroken] at hsingle
  exact ⟨hunbroken, ⟨hstart, hstop, hwhole, hsingle⟩, lead, back, htext, hleadBreaks, hbackBreaks⟩

section
variable (front : Str) (hfirst : ¬ "://".toList <:+: front)
include hfirst

theorem nativeNames_protocol (text : Str) :
    nativeNames (front ++ ':' :: '/' :: '/' :: text) = namesOf (trim text) := by
  rw [nativeNames, stripProtocol_first front text hfirst, componentsOf_eq]

/-! ### Reading the forms -/

theorem scheme_alike (lead body back : Str) (hfront : Scheme (cleaned front))
    (hlead : ∀ c ∈ lead, isWhitespace c = true) (hback : ∀ c ∈ back, isBreak c = true)
    (hbody : Tight body) (hslash : ∀ c ∈ body.head?, c = '/')
    (hprotocol : ¬ "://".toList <:+: body) :
    nativeNames (front ++ ':' :: '/' :: '/' :: (lead ++ (body ++ back))) =
      pythonPieces (front ++ ':' :: '/' :: '/' :: (lead ++ (body ++ back))) := by
  have hname : ∀ c ∈ unbroken lead, c ≠ '/' ∧ isMark c = false := fun c hc =>
    ⟨(blank_char c (blank_unbroken lead hlead c hc)).1,
      (blank_char c (blank_unbroken lead hlead c hc)).2.2⟩
  have hunbroken := unbroken_between lead body back hbody.whole
  rw [unbroken_breaks back hback, List.append_nil] at hunbroken
  rw [nativeNames_protocol front hfirst, trim_between lead body back hlead
    (isWhitespace_of_breaks back hback) hbody, pythonPieces,
    urlPath_scheme front _ (unbroken lead) body hfront hunbroken hname hslash,
    stripProtocol_unchanged _ hprotocol, tight_pieces body hbody]

section
variable (hmarks : ∀ c ∈ front, isMark c = false) (lead body back : Str)
  (hlead : ∀ c ∈ lead, isBreak c = true) (hback : ∀ c ∈ back, isBreak c = true)
  (hbody : Tight body)
include hmarks hlead hback hbody

omit hfirst hmarks in
theorem unbroken_tight : unbroken (lead ++ (body ++ back)) = body := by
  rw [unbroken_between lead body back hbody.whole, unbroken_breaks lead hlead,
    unbroken_breaks back hback, List.nil_append, List.append_nil]

omit hmarks in
theorem nativeNames_tight :
    nativeNames (front ++ ':' :: '/' :: '/' :: (lead ++ (body ++ back))) = namesOf body := by
  rw [nativeNames_protocol front hfirst, trim_between lead body back
    (isWhitespace_of_breaks lead hlead) (isWhitespace_of_breaks back hback) hbody]

theorem colon_alike (name : Str) (hfront : BehindScheme (cleaned front) ('/' :: '/' :: name))
    (hname : '/' ∉ name) (hprotocol : ¬ "://".toList <:+: body) :
    nativeNames (front ++ ':' :: '/' :: '/' :: (lead ++ (body ++ back))) =
      pythonPieces (front ++ ':' :: '/' :: '/' :: (lead ++ (body ++ back))) := by
  have hslashes : ¬ "://".toList <:+: '/' :: '/' :: body := by
    rw [List.infix_cons_iff, List.infix_cons_iff, not_or, not_or]
    refine ⟨?_, ?_, hprotocol⟩ <;> simp
  rw [nativeNames_tight front hfirst lead body back hlead hback hbody, pythonPieces,
    urlPath_colon front hmarks _ name hfront hname,
    unbroken_tight lead body back hlead hback hbody, stripProtocol_unchanged _ hslashes,
    piecesOf_cons_slash, piecesOf_cons_slash, tight_pieces body hbody]

theorem inner_alike (rest start : Str) (hfront : BehindScheme (cleaned front) rest)
    (hrest : BehindAuthority rest start) (hinner : ¬ "://".toList <:+: start) :
    nativeNames (front ++ ':' :: '/' :: '/' :: (lead ++ (body ++ back))) =
      pythonPieces (front ++ ':' :: '/' :: '/' :: (lead ++ (body ++ back))) := by
  rw [nativeNames_tight front hfirst lead body back hlead hback hbody, pythonPieces,
    urlPath_inner front hmarks _ rest start hfront hrest, stripProtocol_first start _ hinner,
    unbroken_tight lead body back hlead hback hbody, tight_pieces body hbody]

end

/-! ### Finding the form -/

section
variable (text : Str)
  (halike : nativeNames (front ++ ':' :: '/' :: '/' :: text) =
    pythonPieces (front ++ ':' :: '/' :: '/' :: text))
include halike

/-- The names weigh as much as the text behind the protocol. -/
theorem visible_kept :
    visible (stripProtocol (urlPath (front ++ ':' :: '/' :: '/' :: text))) = visible text := by
  rw [nativeNames_protocol front hfirst, pythonPieces, eq_comm] at halike
  rw [visible_of_names _ _ ((piecesOf_eq_iff _ _).mp halike).1, visible_trim]

omit hfirst halike in
/- An authority of blanks ends at a slash that comes first behind them. -/
theorem authority_blank (lead rest : Str) (c : Char) (hlead : ∀ d ∈ lead, isWhitespace d = true)
    (hc : isWhitespace c = false)
    (h : visible ((unbroken lead ++ c :: rest).takeWhile fun c => c ≠ '/') = 0) :
    c = '/' ∧ (unbroken lead ++ c :: rest).dropWhile (fun c => c ≠ '/') = c :: rest := by
  have hkept : ∀ d ∈ unbroken lead, (decide (d ≠ '/')) = true := fun d hd => by
    simpa using (blank_char d (blank_unbroken lead hlead d hd)).1
  have hslash : c = '/' := by
    by_contra hne
    rw [List.takeWhile_append_of_pos hkept, List.takeWhile_cons_of_pos (by simpa using hne),
      visible, List.countP_eq_zero] at h
    exact h c (by simp) (by simp [isVisible, hne, hc])
  refine ⟨hslash, ?_⟩
  rw [List.dropWhile_append_of_pos hkept, List.dropWhile_cons_of_neg (by simp [hslash])]

/- The authority has taken nothing but blanks, and no protocol was stripped behind it. -/
theorem scheme_form (hmarks : ∀ c ∈ text, isMark c = false) (hfront : Scheme (cleaned front)) :
    BodyAlike (front ++ ':' :: '/' :: '/' :: text) := by
  have hvisible := visible_kept front hfirst text halike
  rw [nativeNames_protocol front hfirst, pythonPieces, eq_comm] at halike
  have hsplit : unbroken text = (unbroken text).takeWhile (fun c => c ≠ '/') ++
      (unbroken text).dropWhile (fun c => c ≠ '/') := List.takeWhile_append_dropWhile.symm
  have hname : ∀ c ∈ (unbroken text).takeWhile (fun c => c ≠ '/'),
      c ≠ '/' ∧ isMark c = false := by
    intro c hc
    refine ⟨by simpa using List.mem_takeWhile_imp hc, hmarks c ?_⟩
    exact (List.mem_filter.mp ((List.takeWhile_prefix _).mem hc)).1
  have hrest : ∀ c ∈ ((unbroken text).dropWhile (fun c => c ≠ '/')).head?, c = '/' := by
    intro c hc
    simpa using head_dropWhile (fun c => c ≠ '/') (unbroken text) c hc
  have hpath := urlPath_scheme front text _ _ hfront hsplit hname hrest
  rw [hpath] at hvisible halike
  have htotal := congrArg visible hsplit
  rw [visible_append, visible_unbroken] at htotal
  have hprotocol : ¬ "://".toList <:+: (unbroken text).dropWhile (fun c => c ≠ '/') := by
    intro hoccurs
    have hless := visible_stripProtocol _ hoccurs
    omega
  rw [stripProtocol_unchanged _ hprotocol] at hvisible halike
  obtain ⟨hnames, hsingle⟩ := (piecesOf_eq_iff _ _).mp halike
  obtain ⟨lead, back, htext, hlead, hback⟩ := ends_split isWhitespace text
  obtain ⟨hstart, hstop⟩ := ends_kept isWhitespace text
  rw [← trim] at htext
  have hwhole := whole_of_names (trim text) _ hnames fun c hc =>
    not_isBreak_of_mem text c ((List.dropWhile_sublist _).mem hc)
  have hunbroken := unbroken_between lead (trim text) back hwhole
  rw [← htext] at hunbroken
  cases htrim : trim text with
  | nil =>
    have hblank : ∀ c ∈ text, isWhitespace c = true := by
      rw [htext, htrim, List.nil_append]
      exact List.forall_mem_append.mpr ⟨hlead, hback⟩
    have hform := BodyAlike.scheme front text [] [] hfirst hfront hblank (by simp) tight_nil
      (by simp) (by simp)
    rwa [List.append_nil, List.append_nil] at hform
  | cons c body =>
    rw [htrim, List.cons_append] at hunbroken
    have hblank : visible ((unbroken text).takeWhile fun c => c ≠ '/') = 0 := by omega
    rw [hunbroken] at hblank
    obtain ⟨hslash, hdrop⟩ := authority_blank lead _ c hlead
      (hstart c (by rw [← trim, htrim]; rfl)) hblank
    rw [← hunbroken] at hdrop
    rw [hdrop, ← List.cons_append, ← htrim] at hnames hsingle hprotocol
    obtain ⟨_, hbackBreaks⟩ := breaks_around [] (trim text) back (by simp) hback hnames
    rw [unbroken_breaks back hbackBreaks, List.append_nil] at hsingle hprotocol
    have hform := BodyAlike.scheme front lead (trim text) back hfirst hfront hlead hbackBreaks
      ⟨hstart, hstop, hwhole, hsingle⟩ (by rw [htrim]; simp [hslash]) hprotocol
    rwa [← htext] at hform

theorem colon_form (hmarks : ∀ c ∈ front, isMark c = false) (name : Str)
    (hfront : BehindScheme (cleaned front) ('/' :: '/' :: name)) (hname : '/' ∉ name) :
    BodyAlike (front ++ ':' :: '/' :: '/' :: text) := by
  have hvisible := visible_kept front hfirst text halike
  rw [nativeNames_protocol front hfirst, pythonPieces, eq_comm,
    urlPath_colon front hmarks text name hfront hname] at halike
  rw [urlPath_colon front hmarks text name hfront hname] at hvisible
  have hslashes : visible ('/' :: '/' :: unbroken text) = visible text := visible_unbroken text
  have hprotocol : ¬ "://".toList <:+: '/' :: '/' :: unbroken text := by
    intro hoccurs
    have hless := visible_stripProtocol _ hoccurs
    omega
  rw [stripProtocol_unchanged _ hprotocol, piecesOf_cons_slash, piecesOf_cons_slash] at halike
  obtain ⟨hunbroken, htight, lead, back, htext, hlead, hback⟩ := tight_of_pieces text halike
  rw [hunbroken] at hprotocol
  have hform := BodyAlike.colon front name lead (trim text) back hfirst hfront hname hlead hback
    htight fun hoccurs => hprotocol (hoccurs.trans
      ((List.suffix_cons _ _).trans (List.suffix_cons _ _)).isInfix)
  rwa [← htext] at hform

theorem inner_form (hmarks : ∀ c ∈ front, isMark c = false) (rest start : Str)
    (hfront : BehindScheme (cleaned front) rest) (hrest : BehindAuthority rest start) :
    BodyAlike (front ++ ':' :: '/' :: '/' :: text) := by
  have hvisible := visible_kept front hfirst text halike
  rw [nativeNames_protocol front hfirst, pythonPieces, eq_comm,
    urlPath_inner front hmarks text rest start hfront hrest] at halike
  rw [urlPath_inner front hmarks text rest start hfront hrest] at hvisible
  have hinner : ¬ "://".toList <:+: start := by
    intro hoccurs
    -- the protocol behind the front would be left in what is kept
    obtain ⟨_, kept, _, _, hkept⟩ := protocol_cut start hoccurs
    have hcolon := visible_cons ':' ('/' :: '/' :: unbroken text) (by decide)
    have hslashes : visible ('/' :: '/' :: unbroken text) = visible text := visible_unbroken text
    rw [hkept, visible_append] at hvisible
    omega
  rw [stripProtocol_first start _ hinner] at halike
  obtain ⟨_, htight, lead, back, htext, hlead, hback⟩ := tight_of_pieces text halike
  have hform := BodyAlike.inner front rest start lead (trim text) back hfirst hfront hrest hinner
    hlead hback htight
  rwa [← htext] at hform

theorem protocol_form (hmarks : ∀ c ∈ front, isMark c = false)
    (htext : ∀ c ∈ text, isMark c = false) : BodyAlike (front ++ ':' :: '/' :: '/' :: text) := by
  by_cases hscheme : Scheme (cleaned front)
  · exact scheme_form front hfirst text halike htext hscheme
  · obtain ⟨rest, hrest⟩ := exists_behindScheme (cleaned front) hscheme
    by_cases hslashes : "//".toList <+: rest
    · obtain ⟨name, rfl⟩ := hslashes
      by_cases hname : '/' ∈ name
      · obtain ⟨before, more, rfl, hbefore⟩ := List.eq_append_cons_of_mem hname
        exact inner_form front hfirst text halike hmarks _ _ hrest
          (.inr ⟨before, more, hbefore, rfl, rfl⟩)
      · exact colon_form front hfirst text halike hmarks name hrest hname
    · exact inner_form front hfirst text halike hmarks rest rest hrest (.inl ⟨rfl, hslashes⟩)

end

end

end FsspecDb.Ddl
