import FsspecDb.Ddl.BodyText
import FsspecDb.Ddl.Parsers
import FsspecDb.Ddl.QueryText

/-!
# What each parser reads of a path

`DbPath::parse` reads names behind the first protocol and before the first question mark
behind that. `_parse_path` reads what is left of the text before the first mark, behind
scheme, authority and a protocol of its own.
-/

namespace FsspecDb.Ddl
open Text

/-! ### Cuts -/

/-- What stands behind the first protocol, or the whole text if it has none. -/
def BehindProtocol (text rest : Str) : Prop :=
  (∃ front, text = front ++ ':' :: '/' :: '/' :: rest ∧ ¬ "://".toList <:+: front) ∨
    (rest = text ∧ ¬ "://".toList <:+: text)

/-- A text up to its first question mark, and the query behind that. -/
def CutAtQuery (text front query : Str) : Prop :=
  '?' ∉ front ∧ (text = front ++ '?' :: query ∨ text = front ∧ query = [])

/-- What is left behind a scheme, or all if there is none. -/
def WithoutScheme (text rest : Str) : Prop :=
  (∃ scheme, Scheme scheme ∧ text = scheme ++ ':' :: rest) ∨
    (rest = text ∧ ∀ scheme more, Scheme scheme → text ≠ scheme ++ ':' :: more)

/-- What is left behind an authority, or all if there is none. -/
def WithoutAuthority (text rest : Str) : Prop :=
  (∃ name, '/' ∉ name ∧ text = '/' :: '/' :: (name ++ rest) ∧ ∀ c ∈ rest.head?, c = '/') ∨
    (rest = text ∧ ¬ "//".toList <+: text)

/-- The text in which `DbPath::parse` looks for names, and the query. -/
def NativeReads (path text query : Str) : Prop :=
  ∃ rest, BehindProtocol path rest ∧ CutAtQuery rest text query

/-- The text in which `_parse_path` looks for names. -/
def PythonReads (path text : Str) : Prop :=
  ∃ rest url, WithoutScheme (cleaned (pathText path)) rest ∧ WithoutAuthority rest url ∧
    BehindProtocol url text

/-! ### The cuts of the parsers -/

theorem behindProtocol_iff (text rest : Str) :
    BehindProtocol text rest ↔ rest = stripProtocol text := by
  constructor
  · rintro (⟨front, rfl, hfirst⟩ | ⟨rfl, hnone⟩)
    · exact (stripProtocol_first front rest hfirst).symm
    · exact (stripProtocol_unchanged _ hnone).symm
  · rintro rfl
    by_cases hprotocol : "://".toList <:+: text
    · obtain ⟨front, rest, htext, hfirst, _⟩ := protocol_cut text hprotocol
      refine .inl ⟨front, ?_, hfirst⟩
      rw [htext, stripProtocol_first front rest hfirst]
    · exact .inr ⟨stripProtocol_unchanged _ hprotocol, hprotocol⟩

theorem splitQuery_of_cut (text front query : Str) (h : CutAtQuery text front query) :
    splitQuery text = (front, decodeQuery query) := by
  obtain ⟨hquestion, rfl | ⟨rfl, rfl⟩⟩ := h
  · rw [splitQuery_eq, splitOnce_append _ _ '?' hquestion]
  · rw [splitQuery_eq, splitOnce_eq_none _ '?' [] hquestion]
    rfl

theorem exists_cutAtQuery (text : Str) : ∃ front query, CutAtQuery text front query := by
  by_cases hquestion : '?' ∈ text
  · obtain ⟨front, query, rfl, hfront⟩ := List.eq_append_cons_of_mem hquestion
    exact ⟨front, query, hfront, .inl rfl⟩
  · exact ⟨text, [], hquestion, .inr ⟨rfl, rfl⟩⟩

theorem exists_nativeReads (path : Str) : ∃ text query, NativeReads path text query := by
  obtain ⟨text, query, hcut⟩ := exists_cutAtQuery (stripProtocol path)
  exact ⟨text, query, _, (behindProtocol_iff _ _).mpr rfl, hcut⟩

theorem native_names (path text query : Str) (h : NativeReads path text query) :
    componentsOf (pathBehindProtocol path) = namesOf (trim text) ∧
      (splitQuery (stripProtocol path)).2 = decodeQuery query := by
  obtain ⟨rest, hrest, hcut⟩ := h
  have hsplit := splitQuery_of_cut rest text query hcut
  rw [pathBehindProtocol, ← (behindProtocol_iff _ _).mp hrest, hsplit]
  exact ⟨componentsOf_eq text, rfl⟩

theorem splitScheme_eq (text rest : Str) (h : WithoutScheme text rest) :
    (splitScheme text).2 = rest := by
  rcases h with ⟨scheme, hscheme, rfl⟩ | ⟨rfl, hnone⟩
  · exact splitScheme_of_scheme scheme rest hscheme
  · exact splitScheme_of_none _ hnone

theorem exists_withoutScheme (text : Str) : ∃ rest, WithoutScheme text rest := by
  by_cases hscheme : ∃ scheme rest, Scheme scheme ∧ text = scheme ++ ':' :: rest
  · obtain ⟨scheme, rest, h⟩ := hscheme
    exact ⟨rest, .inl ⟨scheme, h⟩⟩
  · exact ⟨text, .inr ⟨rfl, fun scheme more hs heq => hscheme ⟨scheme, more, hs, heq⟩⟩⟩

theorem splitNetloc_eq (text rest : Str) (htext : ∀ c ∈ text, isMark c = false)
    (h : WithoutAuthority text rest) : (splitNetloc text).2 = rest := by
  rcases h with ⟨name, hslash, rfl, hrest⟩ | ⟨rfl, hnone⟩
  · have hname : ∀ c ∈ name, c ≠ '/' ∧ isMark c = false := fun c hc =>
      ⟨fun heq => hslash (heq ▸ hc), htext c (by simp [hc])⟩
    rw [splitNetloc_authority name rest hname hrest]
  · rw [splitNetloc_of_not _ hnone]

theorem exists_withoutAuthority (text : Str) : ∃ rest, WithoutAuthority text rest := by
  by_cases hslashes : "//".toList <+: text
  · obtain ⟨rest, rfl⟩ := hslashes
    refine ⟨rest.dropWhile (· != '/'), .inl ⟨rest.takeWhile (· != '/'), ?_, ?_, ?_⟩⟩
    · exact fun hmem => by simpa using List.mem_takeWhile_imp hmem
    · rw [List.takeWhile_append_dropWhile]
      rfl
    · intro c hc
      simpa using head_dropWhile (· != '/') rest c hc
  · exact ⟨text, .inr ⟨rfl, hslashes⟩⟩

theorem exists_pythonReads (path : Str) : ∃ text, PythonReads path text := by
  obtain ⟨rest, hrest⟩ := exists_withoutScheme (cleaned (pathText path))
  obtain ⟨url, hurl⟩ := exists_withoutAuthority rest
  exact ⟨_, rest, url, hrest, hurl, (behindProtocol_iff _ _).mpr rfl⟩

theorem python_pieces (path text : Str) (h : PythonReads path text) :
    pythonPieces (pathText path) = piecesOf text := by
  obtain ⟨rest, url, hrest, hurl, htext⟩ := h
  have hscheme := splitScheme_eq _ _ hrest
  have hmarks : ∀ c ∈ rest, isMark c = false := by
    intro c hc
    rw [← hscheme] at hc
    exact not_mark_of_mem_pathText path c
      (mem_of_mem_cleaned _ c ((splitScheme_suffix _).mem hc))
  rw [pythonPieces, urlPath, hscheme, splitNetloc_eq rest url hmarks hurl,
    (behindProtocol_iff _ _).mp htext]

/-! ### Components and readings -/

theorem native_components (path : Str) :
    PathParser.native.components path = componentsOf (pathBehindProtocol path) := by
  have hparts := component_of_mem (pathBehindProtocol path)
  have hclean : normalizePath (splitQuery (stripProtocol path)).1 =
      if componentsOf (pathBehindProtocol path) = [] then ['/']
      else slashed (componentsOf (pathBehindProtocol path)) := normalizePath_eq _
  simp only [PathParser.components, hclean]
  by_cases hempty : componentsOf (pathBehindProtocol path) = []
  · rw [if_pos hempty, if_pos rfl, hempty]
  · have hroot : slashed (componentsOf (pathBehindProtocol path)) ≠ ['/'] := by
      cases hcons : componentsOf (pathBehindProtocol path) with
      | nil => exact absurd hcons hempty
      | cons part parts =>
        have hpart := (hparts part (by rw [hcons]; simp)).1
        simp [slashed_cons, hpart]
    rw [if_neg hempty, if_neg hroot, splitOn_trimStart_slashed _ hparts hempty]

theorem python_components (netlocError : Str → Option Str) (path : Str)
    (h : Accepted netlocError (pathText path)) :
    ∃ url, urlsplit netlocError path = .ok url ∧
      (PathParser.python netlocError).components path = pythonPieces (pathText path) ∧
      url.query = unbroken (tailQuery (pathTail path)) := by
  obtain ⟨scheme, fragment, hurl⟩ := urlsplit_eq netlocError path
  have haccepted : (if authority (pathText path) = [] then none
      else netlocError (authority (pathText path))) = none := by
    split
    · rfl
    · next hne => exact h.resolve_left hne
  rw [haccepted] at hurl
  refine ⟨_, hurl, ?_, rfl⟩
  simp only [PathParser.components, hurl]
  rfl

theorem python_fails (netlocError : Str → Option Str) (path : Str)
    (h : ¬ Accepted netlocError (pathText path)) :
    ∃ err, urlsplit netlocError path = .error err := by
  obtain ⟨scheme, fragment, hurl⟩ := urlsplit_eq netlocError path
  rw [Accepted, not_or] at h
  obtain ⟨msg, hmsg⟩ := Option.ne_none_iff_exists'.mp h.2
  rw [if_neg h.1, hmsg] at hurl
  exact ⟨_, hurl⟩

end FsspecDb.Ddl
