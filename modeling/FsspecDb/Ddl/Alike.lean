import FsspecDb.Ddl.BodyForms
import FsspecDb.Ddl.QueryBreaks
import FsspecDb.Ddl.Readings

/-!
# Where the two parsers agree

Either no mark stands before the first protocol: then both parsers read the same text and the
same query, and agree on these in known forms. Or Rust reads behind a protocol that
belongs to the query or the fragment for Python, and they agree by coincidence only.
-/

namespace FsspecDb.Ddl
open Text

/-! ### The condition -/

/-- Both parsers read the text before the first mark, in one of the forms they read alike, and the
query behind it, in which nothing is taken out. -/
structure ReadTogether (path : Str) : Prop where
  front : "://".toList <:+: path → "://".toList <:+: pathText path
  body : BodyAlike (pathText path)
  fragment : '#' ∉ path
  query : ∀ c ∈ pathTail path, isBreak c = false

/-- Rust reads behind a protocol that Python finds in the query or the fragment. Python reads
what stands before the first mark, and the two texts happen to hold the same names and the
same query. -/
structure ReadApart (path native query python : Str) : Prop where
  protocol : "://".toList <:+: path ∧ ¬ "://".toList <:+: pathText path
  fragment : '#' ∈ path
  readings : NativeReads path native query ∧ PythonReads path python
  names : namesOf python = namesOf (trim native)
  single : ¬ InnerSlashes python
  query : decodeQuery (unbroken (tailQuery (pathTail path))) = decodeQuery query

/-- Neither parser knows the shape of the names that it reads. -/
def ShapesUnknown (netlocError : Str → Option Str) (path : Str) : Prop :=
  ∃ native query python, NativeReads path native query ∧ PythonReads path python ∧
    ¬ Supported (namesOf (trim native)) ∧
    (Accepted netlocError (pathText path) → ¬ Supported (piecesOf python))

/-! ### Reading together -/

theorem stripProtocol_front (text tail : Str) (h : "://".toList <:+: text) :
    stripProtocol (text ++ tail) = stripProtocol text ++ tail := by
  obtain ⟨_, rest, _, _, hcut⟩ := protocol_cut text h
  have hstrip := hcut []
  rw [List.append_nil, List.append_nil] at hstrip
  rw [hcut tail, hstrip]

section
variable (path : Str) (hfront : "://".toList <:+: path → "://".toList <:+: pathText path)
include hfront

theorem stripProtocol_together :
    stripProtocol path = stripProtocol (pathText path) ++ pathTail path := by
  by_cases hprotocol : "://".toList <:+: path
  · rw [← stripProtocol_front _ _ (hfront hprotocol), pathText_append]
  · have htext : ¬ "://".toList <:+: pathText path := fun h =>
      hprotocol (h.trans (List.takeWhile_prefix _).isInfix)
    rw [stripProtocol_unchanged _ hprotocol, stripProtocol_unchanged _ htext,
      pathText_append]

omit hfront in
/- A query is split off behind what stands before its question mark. -/
theorem mem_splitQuery (before after : Str) (c : Char) (hc : c ≠ '?') (h : '?' ∉ before) :
    c ∈ (splitQuery (before ++ c :: after)).1 := by
  rw [splitQuery_eq]
  cases hsplit : splitOnce (before ++ c :: after) ['?'] with
  | none => simp
  | some p =>
    have hcut := (splitOnce_char_eq_some _ p.1 p.2 '?' hsplit).1
    rcases List.append_eq_append_iff.mp hcut with ⟨more, hmore, hrest⟩ | ⟨more, hmore, hrest⟩
    · cases more with
      | nil => exact absurd (List.cons.inj hrest).1 hc
      | cons d more =>
        obtain ⟨rfl, _⟩ := List.cons.inj hrest
        simp [hmore]
    · cases more with
      | nil => exact absurd (List.cons.inj hrest).1.symm hc
      | cons d more =>
        obtain ⟨rfl, _⟩ := List.cons.inj hrest
        exact absurd (by rw [hmore]; simp) h

/- A number sign that ends the path is kept by Rust, and is in none of Python's pieces. -/
theorem fragment_divides (fragment : Str) (htail : pathTail path = '#' :: fragment) :
    pythonPieces (pathText path) ≠ componentsOf (pathBehindProtocol path) := by
  have hmarks := not_mark_of_mem_pathText path
  have hquestion : '?' ∉ stripProtocol (pathText path) := fun h =>
    absurd (hmarks '?' ((stripProtocol_suffix _).mem h)) (by decide)
  have hmem : '#' ∈ pathBehindProtocol path := by
    rw [pathBehindProtocol, stripProtocol_together path hfront, htail]
    exact mem_splitQuery _ fragment '#' (by decide) hquestion
  intro hnames
  rw [componentsOf_eq, pythonPieces] at hnames
  obtain ⟨lead, back, htext, hlead, hback⟩ := ends_split isWhitespace (pathBehindProtocol path)
  have hkept : '#' ∈ trim (pathBehindProtocol path) := by
    rw [htext, List.mem_append, List.mem_append] at hmem
    rcases hmem with hmem | hmem | hmem
    · exact absurd (hlead _ hmem) (by decide)
    · exact hmem
    · exact absurd (hback _ hmem) (by decide)
  have hfilter : '#' ∈ (trim (pathBehindProtocol path)).filter fun c => c ≠ '/' :=
    List.mem_filter.mpr ⟨hkept, by decide⟩
  rw [← filter_of_names _ _ ((piecesOf_eq_iff _ _).mp hnames).1] at hfilter
  have hpath := (stripProtocol_suffix _).mem (List.mem_filter.mp hfilter).1
  exact absurd (hmarks '#' (mem_of_mem_urlPath _ _ hpath).1) (by decide)

theorem together_iff :
    (pythonPieces (pathText path) = componentsOf (pathBehindProtocol path) ∧
        decodeQuery (unbroken (tailQuery (pathTail path))) =
          (splitQuery (stripProtocol path)).2) ↔ ReadTogether path := by
  have hmarks := not_mark_of_mem_pathText path
  have hquestion : '?' ∉ stripProtocol (pathText path) := fun h =>
    absurd (hmarks '?' ((stripProtocol_suffix _).mem h)) (by decide)
  have hnumber : '#' ∉ pathText path := fun h => absurd (hmarks '#' h) (by decide)
  have hstrip := stripProtocol_together path hfront
  have hpath := pathText_append path
  have hforms := names_agree_iff (pathText path) hmarks
  cases htail : pathTail path with
  | nil =>
    rw [htail, List.append_nil] at hstrip hpath
    have hsplit : splitQuery (stripProtocol path) = (stripProtocol (pathText path), []) := by
      rw [hstrip, splitQuery_eq, splitOnce_eq_none _ '?' [] hquestion]
    rw [pathBehindProtocol, hsplit]
    constructor
    · rintro ⟨hnames, _⟩
      refine ⟨hfront, hforms.mp hnames.symm, by rwa [← hpath], ?_⟩
      rw [htail]
      simp
    · intro h
      exact ⟨(hforms.mpr h.body).symm, rfl⟩
  | cons c tail =>
    rcases isMark_char c (mark_head_pathTail path c (by rw [htail]; rfl)) with rfl | rfl
    · have hsplit : splitQuery (stripProtocol path) =
          (stripProtocol (pathText path), decodeQuery tail) := by
        rw [hstrip, htail, splitQuery_eq, splitOnce_append _ _ '?' hquestion]
      have hquery : decodeQuery (unbroken (tailQuery ('?' :: tail))) = decodeQuery tail ↔
          '#' ∉ tail ∧ ∀ c ∈ tail, isBreak c = false := query_alike_iff tail
      rw [pathBehindProtocol, hsplit, hquery]
      constructor
      · rintro ⟨hnames, hfragment, hwhole⟩
        refine ⟨hfront, hforms.mp hnames.symm, ?_, ?_⟩
        · rw [← hpath, htail]
          simp [hnumber, hfragment]
        · rw [htail]
          exact List.forall_mem_cons.mpr ⟨by decide, hwhole⟩
      · intro h
        have hfragment := h.fragment
        have hwhole := h.query
        rw [← hpath, htail, List.mem_append, List.mem_cons, not_or, not_or] at hfragment
        rw [htail] at hwhole
        exact ⟨(hforms.mpr h.body).symm, hfragment.2.2, (List.forall_mem_cons.mp hwhole).2⟩
    · constructor
      · rintro ⟨hnames, _⟩
        exact absurd hnames (fragment_divides path hfront tail htail)
      · intro h
        refine absurd ?_ h.fragment
        rw [← hpath, htail]
        simp

end

/-! ### Reading apart -/

/- Without a number sign, Python's query goes on to the end of the path, and has the protocol
in it. -/
theorem fragment_apart (path : Str) (hprotocol : "://".toList <:+: path)
    (htext : ¬ "://".toList <:+: pathText path)
    (hquery : decodeQuery (unbroken (tailQuery (pathTail path))) =
      (splitQuery (stripProtocol path)).2) : '#' ∈ path := by
  by_contra hfragment
  have hpath := pathText_append path
  cases htail : pathTail path with
  | nil =>
    rw [htail, List.append_nil] at hpath
    exact htext (by rwa [hpath])
  | cons c query =>
    rw [htail] at hpath hquery
    rcases isMark_char c (mark_head_pathTail path c (by rw [htail]; rfl)) with rfl | rfl
    · have hnumber : '#' ∉ query := fun hmem => hfragment (by rw [← hpath]; simp [hmem])
      have hbehind : "://".toList <:+: query := by
        rw [← hpath, infix_append_cons_iff _ _ _ '?' (by decide)] at hprotocol
        exact hprotocol.resolve_left htext
      obtain ⟨front, rest, rfl, hfirst, _⟩ := protocol_cut query hbehind
      have hnone : ¬ "://".toList <:+: pathText path ++ '?' :: front := by
        rw [infix_append_cons_iff _ _ _ '?' (by decide), not_or]
        exact ⟨htext, hfirst⟩
      have hstrip := stripProtocol_first _ rest hnone
      rw [List.append_assoc, List.cons_append, hpath] at hstrip
      have hwhole := takeWhile_number (front ++ ':' :: '/' :: '/' :: rest) hnumber
      rw [hstrip, tailQuery, hwhole] at hquery
      exact protocol_query_ne front rest hquery
    · exact hfragment (by rw [← hpath]; simp)

theorem apart_iff (path : Str) (hprotocol : "://".toList <:+: path)
    (htext : ¬ "://".toList <:+: pathText path) :
    (pythonPieces (pathText path) = componentsOf (pathBehindProtocol path) ∧
        decodeQuery (unbroken (tailQuery (pathTail path))) =
          (splitQuery (stripProtocol path)).2) ↔
      ∃ native query python, ReadApart path native query python := by
  constructor
  · rintro ⟨hnames, hquery⟩
    obtain ⟨native, query, hnative⟩ := exists_nativeReads path
    obtain ⟨python, hpython⟩ := exists_pythonReads path
    obtain ⟨hcomponents, hdecoded⟩ := native_names path native query hnative
    have hfragment := fragment_apart path hprotocol htext hquery
    rw [hcomponents, python_pieces path python hpython, piecesOf_eq_iff] at hnames
    rw [hdecoded] at hquery
    exact ⟨native, query, python, ⟨hprotocol, htext⟩, hfragment, ⟨hnative, hpython⟩, hnames.1,
      hnames.2, hquery⟩
  · rintro ⟨native, query, python, h⟩
    obtain ⟨hcomponents, hdecoded⟩ := native_names path native query h.readings.1
    rw [hcomponents, hdecoded, python_pieces path python h.readings.2, piecesOf_eq_iff]
    exact ⟨⟨h.names, h.single⟩, h.query⟩

theorem shapesUnknown_iff (netlocError : Str → Option Str) (path : Str) :
    ShapesUnknown netlocError path ↔ ¬ Supported (componentsOf (pathBehindProtocol path)) ∧
      (Accepted netlocError (pathText path) → ¬ Supported (pythonPieces (pathText path))) := by
  constructor
  · rintro ⟨native, query, python, hnative, hpython, hunknown⟩
    rwa [(native_names path native query hnative).1, python_pieces path python hpython]
  · intro hunknown
    obtain ⟨native, query, hnative⟩ := exists_nativeReads path
    obtain ⟨python, hpython⟩ := exists_pythonReads path
    rw [(native_names path native query hnative).1, python_pieces path python hpython] at hunknown
    exact ⟨native, query, python, hnative, hpython, hunknown⟩

/-- The parsers agree on a path exactly if they read the same text in one of the forms that
they read alike, or different parts of it that say the same, or shapes unknown to each. -/
theorem parsers_agree_iff (netlocError : Str → Option Str) (path : Str) :
    ParsersAgree netlocError path ↔
      (Accepted netlocError (pathText path) ∧
        (ReadTogether path ∨ ∃ native query python, ReadApart path native query python)) ∨
        ShapesUnknown netlocError path := by
  have hsame : (pythonPieces (pathText path) = componentsOf (pathBehindProtocol path) ∧
      decodeQuery (unbroken (tailQuery (pathTail path))) = (splitQuery (stripProtocol path)).2) ↔
      ReadTogether path ∨ ∃ native query python, ReadApart path native query python := by
    by_cases hfront : "://".toList <:+: path → "://".toList <:+: pathText path
    · rw [together_iff path hfront, or_iff_left]
      rintro ⟨native, query, python, h⟩
      exact h.protocol.2 (hfront h.protocol.1)
    · rw [Classical.not_imp] at hfront
      rw [apart_iff path hfront.1 hfront.2, or_iff_right]
      exact fun h => hfront.2 (h.front hfront.1)
  rw [ParsersAgree, native_classified, python_classified, native_components, shapesUnknown_iff]
  by_cases haccepted : Accepted netlocError (pathText path)
  · obtain ⟨url, hurl, hparts, hquery⟩ := python_components netlocError path haccepted
    rw [hurl, hparts]
    simp only [Except.toOption, Option.bind_some, hquery, classified_eq_iff, haccepted,
      true_and, forall_const, hsame]
  · obtain ⟨err, hurl⟩ := python_fails netlocError path haccepted
    rw [hurl]
    simp only [Except.toOption, Option.bind_none, classified_eq_none_iff, haccepted,
      false_and, false_or, IsEmpty.forall_iff, and_true]

theorem repeated_slash_divides_parsers :
    ¬ ∀ (netlocError : Str → Option Str) (path : Str), ParsersAgree netlocError path := by
  intro h
  exact absurd (h (fun _ => none) "/main//users".toList) (by unfold ParsersAgree; decide)

end FsspecDb.Ddl
