import FsspecDb.Ddl.Alike
import FsspecDb.Path.Builders

/-!
# Paths as the documentation writes them

A scheme with an empty authority or none, names behind one slash each, and a query or
none: both parsers read such a path together, and find these names in it.
-/

namespace FsspecDb.Ddl
open Text

/-- A text in which `urlsplit` removes nothing and sees no fragment. -/
def UrlText (text : Str) : Prop := ∀ c ∈ text, c ≠ '#' ∧ isBreak c = false

/-- The scheme with the protocol, if there is one. -/
def writtenFront (scheme : Option Str) : Str :=
  scheme.elim [] fun scheme => scheme ++ "://".toList

/-- An absolute path of components, after a scheme with an empty authority or after nothing,
with a query or without. -/
def writtenPath (scheme : Option Str) (parts : List Str) (query : Option Str) : Str :=
  (writtenFront scheme ++ slashed parts) ++ query.elim [] fun text => '?' :: text

theorem cleaned_scheme (scheme : Str) (h : Scheme scheme) : cleaned scheme = scheme := by
  have hchar (c : Char) (hc : isSchemeChar c = true) : isBreak c = false := by
    by_contra hbreak
    rw [Bool.not_eq_false] at hbreak
    rcases isBreak_char c hbreak with rfl | rfl | rfl <;> exact absurd hc (by decide)
  obtain ⟨c, rest, rfl, hc, hrest⟩ := h
  have hleading : isLeading c = false := by
    by_contra hlow
    rw [Bool.not_eq_false, isLeading, decide_eq_true_eq] at hlow
    have hblank : ∀ n ≤ 0x20, (Char.ofNat n).isAlpha = false := by decide
    have halpha := hblank c.toNat hlow
    rw [Char.ofNat_toNat, hc] at halpha
    cases halpha
  rw [cleaned_cons c rest hleading, unbroken_eq_self rest fun d hd =>
    hchar d (List.all_eq_true.mp hrest d hd)]

section
variable (parts : List Str) (hne : parts ≠ []) (hparts : ∀ part ∈ parts, PathName part)
  (htexts : ∀ part ∈ parts, UrlText part)
include hne hparts

/- One slash is at the start, and no second one. -/
theorem slashed_start : ∃ c rest, slashed parts = '/' :: c :: rest ∧ c ≠ '/' := by
  cases parts with
  | nil => exact absurd rfl hne
  | cons part rest =>
    obtain ⟨hpart, hslash, _⟩ := hparts part (by simp)
    cases part with
    | nil => exact absurd rfl hpart
    | cons c part => exact ⟨c, part ++ slashed rest, rfl, fun heq => hslash (by simp [heq])⟩

theorem slashed_authority (c : Char) (rest : Str) (h : slashed parts = '/' :: '/' :: c :: rest) :
    c = '/' := by
  obtain ⟨d, more, hstart, hd⟩ := slashed_start parts hne hparts
  rw [hstart] at h
  exact absurd (List.cons.inj (List.cons.inj h).2).1 hd

include htexts

theorem slashed_tight : Tight (slashed parts) := by
  have hcomponents : ∀ part ∈ parts, Component part := fun part hpart =>
    (hparts part hpart).segment.1
  obtain ⟨c, rest, hstart, _⟩ := slashed_start parts hne hparts
  refine ⟨?_, ?_, ?_, ?_⟩
  · intro d hd
    rw [hstart] at hd
    obtain rfl : '/' = d := Option.some.inj hd
    decide
  · intro d hd
    have hblank := endsBlank_slashed parts hne hparts
    rw [EndsBlank, Option.mem_def.mp hd, Option.any_some] at hblank
    simpa using hblank
  · intro d hd
    obtain ⟨part, hpart, hd⟩ := List.mem_flatMap.mp hd
    rcases List.mem_cons.mp hd with rfl | hd
    · decide
    · exact (htexts part hpart d hd).2
  · rw [← nil_mem_piecesOf, piecesOf, if_neg (strip_slashed_ne_nil parts hcomponents hne),
      splitOn_strip_slashed parts hcomponents hne]
    exact fun hmem => (hcomponents [] hmem).1 rfl

omit hne in
theorem slashed_no_mark : ∀ c ∈ slashed parts, isMark c = false := by
  have hquestion := question_not_mem_slashed parts fun part hpart => (hparts part hpart).segment
  intro c hc
  have hnumber : c ≠ '#' := by
    obtain ⟨part, hpart, hd⟩ := List.mem_flatMap.mp hc
    rcases List.mem_cons.mp hd with rfl | hd
    · decide
    · exact (htexts part hpart c hd).1
  have hnotQuestion : c ≠ '?' := fun heq => hquestion (heq ▸ hc)
  simp [isMark, hnumber, hnotQuestion]

variable (scheme : Option Str) (hscheme : ∀ name ∈ scheme, Scheme name)
include hscheme

omit hne hparts htexts in
theorem writtenFront_no_mark : ∀ c ∈ writtenFront scheme, isMark c = false := by
  cases scheme with
  | none => simp [writtenFront]
  | some name =>
    intro c hc
    rcases List.mem_append.mp hc with hc | hc
    · exact (mark_not_mem_scheme name (hscheme name rfl) c hc).2
    · have hslashes : ∀ d ∈ "://".toList, isMark d = false := by simp [isMark]
      exact hslashes c hc

/- The names are in one of the forms, and there is no authority. -/
theorem written_body : BodyAlike (writtenFront scheme ++ slashed parts) ∧
    authority (writtenFront scheme ++ slashed parts) = [] := by
  have htight := slashed_tight parts hne hparts htexts
  obtain ⟨c, rest, hstart, hc⟩ := slashed_start parts hne hparts
  have hprotocol := protocol_not_infix_slashed parts fun part hpart =>
    (hparts part hpart).segment.1
  have hwhole := unbroken_eq_self (slashed parts) htight.whole
  cases scheme with
  | none =>
    have hcleaned : cleaned (slashed parts) = slashed parts := by
      rw [cleaned, hstart, List.dropWhile_cons_of_neg (by decide), ← hstart, hwhole]
    have hslashes : ¬ "//".toList <+: slashed parts := by
      rintro ⟨more, hmore⟩
      rw [hstart] at hmore
      exact hc (List.cons.inj (List.cons.inj hmore).2).1.symm
    have hnone : ∀ name more, Scheme name → slashed parts ≠ name ++ ':' :: more := by
      intro name more hname
      rw [hstart]
      exact slash_no_scheme _ name more hname
    constructor
    · have hform := BodyAlike.bare [] (slashed parts) [] (by simp) (by simp) htight
        (by rw [hstart]; rintro d ⟨⟩; decide) (by simpa using hprotocol) hnone
        (slashed_authority parts hne hparts)
      simpa [writtenFront] using hform
    · rw [writtenFront, Option.elim_none, List.nil_append, authority, hcleaned,
        splitScheme_of_none _ hnone, splitNetloc_of_not _ hslashes]
  | some name =>
    have hname := hscheme name rfl
    have hfront : writtenFront (some name) ++ slashed parts =
        name ++ ':' :: '/' :: '/' :: slashed parts := by
      simp [writtenFront]
    rw [hfront]
    constructor
    · have hcolon : ¬ "://".toList <:+: name := fun hoccurs =>
        scheme_no_colon name hname (hoccurs.mem (by decide))
      have hform := BodyAlike.scheme name [] (slashed parts) [] hcolon
        (by rwa [cleaned_scheme name hname]) (by simp) (by simp) htight
        (by rw [hstart]; simp) hprotocol
      simpa using hform
    · rw [authority, cleaned_protocol, hwhole, cleaned_scheme name hname,
        splitScheme_of_scheme _ _ hname]
      exact congrArg Prod.fst (splitNetloc_authority [] (slashed parts) (by simp)
        (by rw [hstart]; simp))

variable (query : Option Str) (hquery : ∀ text ∈ query, UrlText text)

omit hne hquery in
theorem written_text : pathText (writtenPath scheme parts query) =
      writtenFront scheme ++ slashed parts ∧
    pathTail (writtenPath scheme parts query) = query.elim [] fun text => '?' :: text := by
  refine pathText_split _ _ ?_ ?_
  · exact List.forall_mem_append.mpr ⟨writtenFront_no_mark scheme hscheme,
      slashed_no_mark parts hparts htexts⟩
  · cases query with
    | none => simp
    | some text => simp [isMark]

variable (hprotocol : scheme = none → ∀ text ∈ query, ¬ "://".toList <:+: text)
include hquery hprotocol

theorem written_together : ReadTogether (writtenPath scheme parts query) := by
  obtain ⟨htext, htail⟩ := written_text parts hparts htexts scheme hscheme query
  have hbody := (written_body parts hne hparts htexts scheme hscheme).1
  have hslashed := protocol_not_infix_slashed parts fun part hpart =>
    (hparts part hpart).segment.1
  have hpath := pathText_append (writtenPath scheme parts query)
  rw [htext, htail] at hpath
  refine ⟨fun hoccurs => ?_, by rwa [htext], fun hfragment => ?_, ?_⟩
  · rw [htext]
    cases scheme with
    | some name => exact ⟨name, slashed parts, rfl⟩
    | none =>
      rw [writtenFront, Option.elim_none, List.nil_append]
      rw [writtenPath, writtenFront, Option.elim_none, List.nil_append] at hoccurs
      cases query with
      | none => simpa using hoccurs
      | some text =>
        rw [Option.elim_some, infix_append_cons_iff _ _ _ '?' (by decide)] at hoccurs
        exact hoccurs.resolve_right (hprotocol rfl text rfl)
  · rw [← hpath, List.mem_append, List.mem_append] at hfragment
    rcases hfragment with (hfront | hfront) | hfragment
    · exact absurd (writtenFront_no_mark scheme hscheme '#' hfront) (by decide)
    · exact absurd (slashed_no_mark parts hparts htexts '#' hfront) (by decide)
    · cases query with
      | none => cases hfragment
      | some text =>
        rcases List.mem_cons.mp hfragment with heq | hfragment
        · cases heq
        · exact (hquery text rfl '#' hfragment).1 rfl
  · rw [htail]
    cases query with
    | none => simp
    | some text =>
      exact List.forall_mem_cons.mpr ⟨by decide, fun c hc => (hquery text rfl c hc).2⟩

theorem written_native : PathParser.native.components (writtenPath scheme parts query) = parts := by
  have htogether := written_together parts hne hparts htexts scheme hscheme query hquery hprotocol
  obtain ⟨htext, htail⟩ := written_text parts hparts htexts scheme hscheme query
  have hcomponents : ∀ part ∈ parts, Component part := fun part hpart =>
    (hparts part hpart).segment.1
  have hquestion := question_not_mem_slashed parts fun part hpart => (hparts part hpart).segment
  have hstrip : stripProtocol (writtenFront scheme ++ slashed parts) = slashed parts := by
    cases scheme with
    | none => exact stripProtocol_slashed parts hcomponents
    | some name =>
      have hcolon : ¬ "://".toList <:+: name := fun hoccurs =>
        scheme_no_colon name (hscheme name rfl) (hoccurs.mem (by decide))
      have hfront : writtenFront (some name) ++ slashed parts =
          name ++ ':' :: '/' :: '/' :: slashed parts := by
        simp [writtenFront]
      rw [hfront, stripProtocol_first name _ hcolon]
  have hkept : pathBehindProtocol (writtenPath scheme parts query) = slashed parts := by
    rw [pathBehindProtocol, stripProtocol_together _ htogether.front, htext, htail, hstrip,
      splitQuery_eq]
    cases query with
    | none =>
      rw [Option.elim_none, List.append_nil, splitOnce_eq_none _ '?' [] hquestion]
    | some text => rw [Option.elim_some, splitOnce_append _ _ '?' hquestion]
  rw [native_components, hkept,
    componentsOf_slashed parts hcomponents (endsBlank_slashed parts hne hparts)]

/-- Both parsers find the names that were written. -/
theorem components_written (parser : PathParser) :
    parser.components (writtenPath scheme parts query) = parts := by
  have hnative := written_native parts hne hparts htexts scheme hscheme query hquery hprotocol
  cases parser with
  | native => exact hnative
  | python netlocError =>
    have htogether := written_together parts hne hparts htexts scheme hscheme query hquery
      hprotocol
    obtain ⟨htext, _⟩ := written_text parts hparts htexts scheme hscheme query
    have haccepted : Accepted netlocError (pathText (writtenPath scheme parts query)) := by
      rw [htext]
      exact .inl (written_body parts hne hparts htexts scheme hscheme).2
    obtain ⟨_, _, hpython, _⟩ := python_components netlocError _ haccepted
    rw [hpython, ((together_iff _ htogether.front).mpr htogether).1, ← native_components, hnative]

end

end FsspecDb.Ddl
