import FsspecDb.Path.Builders
import FsspecDb.Path.Query

/-!
# Canonical paths (path.rs, `DbPath::to_path`)

`parse` decodes the query and drops slashes and whitespace, and `to_path` joins what it
left. The result is parsed into the same path unless a decoded text needs an escape or
the path ends in whitespace again.
-/

namespace FsspecDb
open Text

/-- The name at the end of the path, if nothing comes after it. -/
def DbPath.lastName (path : DbPath) : Str :=
  match path.schema, path.relation, path.kind with
  | some schema, _, .Schema => schema
  | _, some relation, .Relation => relation
  | _, _, .Facet _ (some item) => item
  | _, _, _ => []

/-! ### Components and their path -/

/-- The clean path of the components. -/
def pathOf (parts : List Str) : Str := if parts = [] then ['/'] else slashed parts

theorem pathOf_injective (parts parts' : List Str) (h : pathOf parts = pathOf parts')
    (hparts : ∀ part ∈ parts, Component part) (hparts' : ∀ part ∈ parts', Component part) :
    parts = parts' := by
  have hroot (other : List Str) (hother : ∀ part ∈ other, Component part) (hne : other ≠ []) :
      slashed other ≠ ['/'] := by
    cases other with
    | nil => exact absurd rfl hne
    | cons part rest => simp [slashed_cons, (hother part (by simp)).1]
  unfold pathOf at h
  split_ifs at h with hnil hnil' hnil'
  · rw [hnil, hnil']
  · exact absurd h.symm (hroot parts' hparts' hnil')
  · exact absurd h (hroot parts hparts hnil)
  · have hsplit := splitOn_slashed parts hparts
    rw [h, splitOn_slashed parts' hparts'] at hsplit
    exact (List.cons.inj hsplit).2.symm

/-- What the components are classified as is printed as their path. -/
theorem classify_ok (path : Str) (parts : List Str) (query : List (Str × Str)) (parsed : DbPath)
    (hparts : ∀ part ∈ parts, Component part)
    (h : DbPath.classify path parts query = .ok parsed) :
    parsed.toPathBase = slashed parts ∧ parsed.query = query ∧
      (EndsBlank (slashed parts) ↔ EndsBlank parsed.lastName) ∧
      ∀ path', DbPath.classify path' parts query = .ok parsed := by
  have hplain (init : List Str) (last : Str) (hne : last ≠ []) (hend : ¬ EndsBlank last) :
      EndsBlank (slashed (init ++ [last])) ↔ EndsBlank [] := by
    rw [endsBlank_slashed_concat init last hne]
    exact ⟨fun h => absurd h hend, fun h => absurd h (by decide)⟩
  match parts with
  | [] | _ :: _ :: _ :: _ :: _ :: _ => simp [DbPath.classify] at h
  | [schema] =>
    rw [← Except.ok.inj h]
    exact ⟨by simp [DbPath.toPathBase, slashed], rfl,
      endsBlank_slashed_concat [] schema (hparts schema (by simp)).1, fun _ => rfl⟩
  | [schema, relationPart] =>
    simp only [DbPath.classify] at h ⊢
    cases hformat : splitRelationFormat relationPart with
    | none =>
      rw [hformat] at h
      rw [← Except.ok.inj h]
      exact ⟨by simp [DbPath.toPathBase, slashed], rfl,
        endsBlank_slashed_concat [schema] relationPart (hparts relationPart (by simp)).1,
        fun _ => rfl⟩
    | some p =>
      obtain ⟨relation, format⟩ := p
      rw [hformat] at h
      rw [← Except.ok.inj h]
      have hrelation := (splitRelationFormat_eq_some_iff relationPart relation format).mp hformat
      have hend : ¬ EndsBlank relationPart := by
        rw [hrelation, endsBlank_append _ _ (by simp)]
        cases format <;> decide
      exact ⟨by simp [DbPath.toPathBase, slashed, hrelation], rfl,
        hplain [schema] relationPart (hparts relationPart (by simp)).1 hend, fun _ => rfl⟩
  | [schema, relation, facet] =>
    simp only [DbPath.classify] at h ⊢
    by_cases hdefinition : facet = "definition.sql".toList
    · rw [if_pos hdefinition] at h
      rw [← Except.ok.inj h, hdefinition]
      exact ⟨by simp [DbPath.toPathBase, slashed], rfl,
        hplain [schema, relation] _ (by decide) (by decide), fun _ => rfl⟩
    · rw [if_neg hdefinition] at h
      cases hfacet : DbFacet.parse facet with
      | none => simp [hfacet] at h
      | some known =>
        rw [hfacet] at h
        have hname := (DbFacet.parse_eq_some facet known).mp hfacet
        rw [← Except.ok.inj h]
        refine ⟨by simp [DbPath.toPathBase, slashed, hname], rfl,
          hplain [schema, relation] _ (hparts facet (by simp)).1 ?_, fun path' => ?_⟩
        · rw [hname]
          cases known <;> decide
        · rw [if_neg hdefinition]
  | [schema, relation, facet, item] =>
    simp only [DbPath.classify] at h ⊢
    cases hfacet : DbFacet.parse facet with
    | none => simp [hfacet] at h
    | some known =>
      rw [hfacet] at h
      have hname := (DbFacet.parse_eq_some facet known).mp hfacet
      rw [← Except.ok.inj h]
      exact ⟨by simp [DbPath.toPathBase, slashed, hname], rfl,
        endsBlank_slashed_concat [schema, relation, facet] item (hparts item (by simp)).1,
        fun _ => rfl⟩

/-- What a path is parsed into is printed as its clean path and has its query. -/
theorem parse_ok (path pathPart : Str) (query : List (Str × Str)) (parsed : DbPath)
    (hsplit : splitQuery (stripProtocol path) = (pathPart, query))
    (h : DbPath.parse path = .ok parsed) :
    parsed.toPathBase = pathOf (componentsOf pathPart) ∧ parsed.query = query ∧
      (EndsBlank (pathOf (componentsOf pathPart)) ↔ EndsBlank parsed.lastName) := by
  rw [parse_eq path pathPart query hsplit] at h
  rw [pathOf]
  split_ifs at h ⊢ with hempty
  · rw [← Except.ok.inj h]
    have hroot : EndsBlank ['/'] ↔ EndsBlank [] := by decide
    exact ⟨rfl, rfl, hroot⟩
  · obtain ⟨hbase, hquery, hblank, _⟩ := classify_ok path _ query parsed
      (component_of_mem pathPart) h
    exact ⟨hbase, hquery, hblank⟩

/-- The parsed path depends on the components and the query only. -/
theorem parse_eq_ok_iff (path path' pathPart pathPart' : Str) (query query' : List (Str × Str))
    (parsed : DbPath) (hsplit : splitQuery (stripProtocol path) = (pathPart, query))
    (hsplit' : splitQuery (stripProtocol path') = (pathPart', query'))
    (h : DbPath.parse path = .ok parsed) :
    DbPath.parse path' = .ok parsed ↔
      componentsOf pathPart' = componentsOf pathPart ∧ query' = query := by
  have hok := parse_ok path pathPart query parsed hsplit h
  constructor
  · intro h'
    have hok' := parse_ok path' pathPart' query' parsed hsplit' h'
    exact ⟨pathOf_injective _ _ (hok'.1.symm.trans hok.1) (component_of_mem pathPart')
      (component_of_mem pathPart), hok'.2.1.symm.trans hok.2.1⟩
  · intro hgiven
    obtain ⟨hparts, rfl⟩ := hgiven
    rw [parse_eq path pathPart _ hsplit] at h
    rw [parse_eq path' pathPart' _ hsplit', hparts]
    split_ifs at h ⊢ with hempty
    · exact h
    · exact (classify_ok path _ _ parsed (component_of_mem pathPart) h).2.2.2 path'

/-! ### Whitespace at the end -/

theorem count_componentsOf (pathPart : Str) (c : Char) (hc : c ≠ '/') :
    ((componentsOf pathPart).map (List.count c)).sum = (trim pathPart).count c :=
  sum_pieces (List.count c) '/' List.count_nil (count_separator c '/' hc) (trim pathPart)

theorem count_slashed (parts : List Str) (c : Char) (hc : c ≠ '/') :
    (slashed parts).count c = (parts.map (List.count c)).sum := by
  induction parts with
  | nil => rfl
  | cons part parts ih =>
    rw [slashed_cons, List.count_append, List.count_cons_of_ne hc.symm, ih]
    rfl

/-- A blank at the end of the path is trimmed off and missing in the components. -/
theorem componentsOf_slashed_iff (parts : List Str) (hparts : ∀ part ∈ parts, Component part) :
    componentsOf (slashed parts) = parts ↔ ¬ EndsBlank (slashed parts) := by
  refine ⟨fun h hblank => ?_, componentsOf_slashed parts hparts⟩
  have hne : slashed parts ≠ [] := fun hnil => by
    rw [hnil] at hblank
    exact absurd hblank (by decide)
  obtain ⟨init, c, hconcat⟩ : ∃ init c, slashed parts = init ++ [c] :=
    ⟨_, _, (List.dropLast_append_getLast hne).symm⟩
  have hc : isWhitespace c = true := by simpa [EndsBlank, hconcat] using hblank
  have hslash : c ≠ '/' := fun heq => by
    rw [heq] at hc
    exact absurd hc (by decide)
  have hstart : (slashed parts).dropWhile isWhitespace = slashed parts := by
    cases parts with
    | nil => exact absurd rfl hne
    | cons part rest =>
      rw [slashed_cons, List.cons_append, List.dropWhile_cons_of_neg (by decide)]
  have htrim : trim (slashed parts) <+: init := by
    rw [trim, hstart, hconcat, List.rdropWhile_concat_pos _ _ _ hc]
    exact List.rdropWhile_prefix ..
  have hcount : (slashed parts).count c ≤ init.count c := by
    rw [count_slashed parts c hslash]
    conv_lhs => rw [← h, count_componentsOf _ c hslash]
    exact htrim.sublist.count_le c
  rw [hconcat, List.count_append, List.count_singleton_self] at hcount
  omega

theorem componentsOf_pathOf_iff (parts : List Str) (hparts : ∀ part ∈ parts, Component part) :
    componentsOf (pathOf parts) = parts ↔ ¬ EndsBlank (pathOf parts) := by
  rw [pathOf]
  split_ifs with hempty
  · rw [hempty]
    decide
  · exact componentsOf_slashed_iff parts hparts

/-! ### The printed path is parsed -/

/-- A key and a value that `to_path` and `parse` carry unchanged. -/
def PlainPair (pair : Str × Str) : Prop :=
  Verbatim pair.1 ∧ Verbatim pair.2 ∧ '=' ∉ pair.1 ∧ ¬ "://".toList <:+: pair.1 ∧
    ¬ "://".toList <:+: pair.2

theorem protocol_infix_queryText (pairs : List (Str × Str)) :
    "://".toList <:+: queryText pairs ↔
      ∃ pair ∈ pairs, "://".toList <:+: pair.1 ∨ "://".toList <:+: pair.2 := by
  induction pairs with
  | nil => simp [queryText, join]
  | cons pair pairs ih =>
    have hpair : "://".toList <:+: pair.1 ++ '=' :: pair.2 ↔
        "://".toList <:+: pair.1 ∨ "://".toList <:+: pair.2 :=
      infix_append_cons_iff _ _ _ '=' (by decide)
    cases pairs with
    | nil => simpa [queryText, join, List.intercalate] using hpair
    | cons next pairs =>
      have hjoin : queryText (pair :: next :: pairs) =
          (pair.1 ++ '=' :: pair.2) ++ '&' :: queryText (next :: pairs) := by
        simp [queryText, join, List.intercalate]
      rw [hjoin, infix_append_cons_iff _ _ _ '&' (by decide), hpair, ih]
      simp only [List.mem_cons, exists_eq_or_imp]

/-- A query cut at a protocol is not the query any more: it has lost a colon. -/
theorem query_of_stripped_ne (pairs : List (Str × Str)) (before rest : Str)
    (htext : queryText pairs = before ++ "://".toList ++ rest) :
    (splitQuery rest).2 ≠ pairs := by
  have hcolon := count_queryText ':' pairs (by decide) (by decide)
  have hcolons : rest.count ':' < (queryText pairs).count ':' := by
    rw [htext, List.count_append, List.count_append,
      show List.count ':' "://".toList = 1 from by decide]
    omega
  intro hquery
  rw [splitQuery_eq] at hquery
  cases hsplit : splitOnce rest ['?'] with
  | none =>
    rw [hsplit] at hquery
    rw [← hquery] at htext
    simp [queryText, join] at htext
  | some p =>
    obtain ⟨pathPart, text⟩ := p
    rw [hsplit] at hquery
    have hrest := (splitOnce_char_eq_some rest pathPart text '?' hsplit).1
    have hsublist : text.Sublist rest := by
      rw [hrest]
      exact (List.sublist_cons_self '?' text).trans (List.sublist_append_right ..)
    have hpercent : text.count '%' ≤ (queryText pairs).count '%' := by
      rw [htext, List.count_append, List.count_append]
      have := hsublist.count_le '%'
      omega
    have hother := no_other_escapes text pairs hquery hpercent
    have hsame : total ':' pairs = total ':' (rawPairs text) := by
      have hquery : (rawPairs text).map decodePair = pairs := hquery
      rw [← hquery, total, total, List.map_map]
      refine congrArg List.sum (List.map_congr_left fun raw hraw => ?_)
      obtain ⟨hkey, hvalue⟩ := count_decodePair ':' raw (by decide) (by decide) (by decide)
        (by decide) (hother raw hraw)
      rw [Function.comp_apply, hkey, hvalue]
    rw [total_rawPairs ':' text (by decide) (by decide)] at hsame
    have := hsublist.count_le ':'
    omega

theorem toPath_eq (path : DbPath) :
    path.toPath =
      if path.query = [] then path.toPathBase
      else path.toPathBase ++ '?' :: queryText path.query := by
  rw [DbPath.toPath]
  cases path.query <;> rfl

/-- What is behind the path of the components, once the protocol is looked for. -/
theorem split_toPath_iff (parts : List Str) (query : List (Str × Str))
    (hparts : ∀ part ∈ parts, Component part) (hquestion : '?' ∉ pathOf parts) :
    (∃ pathPart, componentsOf pathPart = parts ∧
      splitQuery (stripProtocol (if query = [] then pathOf parts
        else pathOf parts ++ '?' :: queryText query)) = (pathPart, query)) ↔
      ¬ EndsBlank (pathOf parts) ∧ ∀ pair ∈ query, PlainPair pair := by
  have hprotocol : ¬ "://".toList <:+: pathOf parts := by
    rw [pathOf]
    split_ifs
    · decide
    · exact protocol_not_infix_slashed parts hparts
  have hstrip := stripProtocol_unchanged (pathOf parts) hprotocol
  by_cases hempty : query = []
  · rw [if_pos hempty, hstrip, splitQuery_eq, splitOnce_eq_none _ '?' [] hquestion,
      ← componentsOf_pathOf_iff parts hparts, hempty]
    simp
  · rw [if_neg hempty, stripProtocol,
      splitOnce_append_cons _ _ _ '?' (by decide) hprotocol]
    cases hsplit : splitOnce (queryText query) "://".toList with
    | none =>
      have hplain := (splitOnce_eq_none_iff _ _ (by decide)).mp hsplit
      rw [protocol_infix_queryText] at hplain
      push Not at hplain
      simp only [Option.map_none, splitQuery_eq, splitOnce_append _ _ '?' hquestion,
        Prod.mk.injEq, decodeQuery_queryText_iff, ← componentsOf_pathOf_iff parts hparts]
      constructor
      · intro h
        obtain ⟨_, hparts', rfl, hpairs⟩ := h
        exact ⟨hparts', fun pair hpair => ⟨(hpairs pair hpair).1, (hpairs pair hpair).2.1,
          (hpairs pair hpair).2.2, hplain pair hpair⟩⟩
      · intro hgiven
        obtain ⟨hparts', hpairs⟩ := hgiven
        exact ⟨_, hparts', rfl, fun pair hpair => ⟨(hpairs pair hpair).1, (hpairs pair hpair).2.1,
          (hpairs pair hpair).2.2.1⟩⟩
    | some p =>
      have htext := splitOnce_eq_some _ _ p.1 p.2 hsplit
      constructor
      · intro hall
        obtain ⟨pathPart, _, hquery⟩ := hall
        exact absurd (congrArg Prod.snd hquery) (query_of_stripped_ne query p.1 p.2 htext)
      · intro hgiven
        obtain ⟨_, hpairs⟩ := hgiven
        have hoccurs : "://".toList <:+: queryText query := ⟨p.1, p.2, htext.symm⟩
        obtain ⟨pair, hpair, hin⟩ := (protocol_infix_queryText query).mp hoccurs
        obtain ⟨_, _, _, hkey, hvalue⟩ := hpairs pair hpair
        exact absurd hin (not_or.mpr ⟨hkey, hvalue⟩)

theorem question_not_mem_pathOf (path pathPart : Str) (query : List (Str × Str))
    (hsplit : splitQuery path = (pathPart, query)) : '?' ∉ pathOf (componentsOf pathPart) := by
  have hpart : '?' ∉ pathPart := by
    rw [splitQuery_eq] at hsplit
    cases hcut : splitOnce path ['?'] with
    | none =>
      rw [hcut] at hsplit
      obtain ⟨rfl, _⟩ := Prod.mk.inj hsplit
      have hoccurs := (splitOnce_eq_none_iff path ['?'] (by simp)).mp hcut
      exact fun hmem => hoccurs ((List.singleton_infix_iff ..).mpr hmem)
    | some p =>
      rw [hcut] at hsplit
      obtain ⟨rfl, _⟩ := Prod.mk.inj hsplit
      exact (splitOnce_char_eq_some path p.1 p.2 '?' hcut).2
  have htrim : (trim pathPart).Sublist pathPart := by
    have hcut := List.rdropWhile_prefix isWhitespace (pathPart.dropWhile isWhitespace)
    exact hcut.sublist.trans (List.dropWhile_suffix ..).sublist
  rw [pathOf]
  split_ifs
  · decide
  · rw [← List.count_eq_zero, count_slashed _ '?' (by decide), count_componentsOf _ '?' (by decide)]
    have hle := htrim.count_le '?'
    rw [List.count_eq_zero.mpr hpart] at hle
    omega

/-- The names a path of its kind has, and they are segments. -/
def DbPath.HasNames (parsed : DbPath) : Prop :=
  match parsed.kind with
  | .Root | .RelationData _ => True
  | .Schema => ∃ schema, parsed.schema = some schema ∧ Segment schema
  | .Relation | .Facet _ _ | .ViewDefinition => ∃ schema relation,
      parsed.schema = some schema ∧ parsed.relation = some relation ∧ Segment schema ∧
        Segment relation

theorem parse_names (path : Str) (parsed : DbPath) (h : DbPath.parse path = .ok parsed) :
    parsed.HasNames := by
  obtain ⟨pathPart, query, hsplit⟩ : ∃ pathPart query,
      splitQuery (stripProtocol path) = (pathPart, query) := ⟨_, _, rfl⟩
  have hquestion := question_not_mem_pathOf _ pathPart query hsplit
  have hsegments : ∀ part ∈ componentsOf pathPart, Segment part := by
    intro part hpart
    refine ⟨component_of_mem pathPart part hpart, fun hmem => hquestion ?_⟩
    rw [pathOf, if_neg (List.ne_nil_of_mem hpart), slashed, List.mem_flatMap]
    exact ⟨part, hpart, List.mem_cons_of_mem _ hmem⟩
  rw [parse_eq path pathPart query hsplit] at h
  generalize componentsOf pathPart = parts at hsegments h
  rcases parts with _ | ⟨schema, _ | ⟨relation, _ | ⟨facet, _ | ⟨item, _ | ⟨_, _⟩⟩⟩⟩⟩
  · rw [← Except.ok.inj h]
    trivial
  · rw [← Except.ok.inj h]
    exact ⟨schema, rfl, hsegments schema (by simp)⟩
  · simp only [reduceCtorEq, if_false, DbPath.classify] at h
    cases hformat : splitRelationFormat relation with
    | none =>
      rw [hformat] at h
      rw [← Except.ok.inj h]
      exact ⟨schema, relation, rfl, rfl, hsegments schema (by simp), hsegments relation (by simp)⟩
    | some p =>
      rw [hformat] at h
      rw [← Except.ok.inj h]
      trivial
  · simp only [reduceCtorEq, if_false, DbPath.classify] at h
    split_ifs at h
    · rw [← Except.ok.inj h]
      exact ⟨schema, relation, rfl, rfl, hsegments schema (by simp), hsegments relation (by simp)⟩
    · split at h
      · rw [← Except.ok.inj h]
        exact ⟨schema, relation, rfl, rfl, hsegments schema (by simp),
          hsegments relation (by simp)⟩
      · simp at h
  · simp only [reduceCtorEq, if_false, DbPath.classify] at h
    split at h
    · rw [← Except.ok.inj h]
      exact ⟨schema, relation, rfl, rfl, hsegments schema (by simp), hsegments relation (by simp)⟩
    · simp at h
  · simp [DbPath.classify] at h

/-- `to_path` is read back exactly for a path that needs no escape. -/
theorem parse_toPath_iff (path : Str) (parsed : DbPath) (h : DbPath.parse path = .ok parsed) :
    DbPath.parse parsed.toPath = .ok parsed ↔
      ¬ EndsBlank parsed.lastName ∧ ∀ pair ∈ parsed.query, PlainPair pair := by
  obtain ⟨pathPart, query, hsplit⟩ : ∃ pathPart query,
      splitQuery (stripProtocol path) = (pathPart, query) := ⟨_, _, rfl⟩
  obtain ⟨hbase, hquery, hblank⟩ := parse_ok path pathPart query parsed hsplit h
  rw [← hblank, toPath_eq, hbase, hquery, ← split_toPath_iff (componentsOf pathPart) query
    (component_of_mem pathPart) (question_not_mem_pathOf _ pathPart query hsplit)]
  constructor
  · intro h'
    obtain ⟨pathPart', query', hsplit'⟩ : ∃ pathPart' query',
        splitQuery (stripProtocol (if query = [] then pathOf (componentsOf pathPart)
          else pathOf (componentsOf pathPart) ++ '?' :: queryText query)) = (pathPart', query') :=
      ⟨_, _, rfl⟩
    obtain ⟨hparts, hquery'⟩ :=
      (parse_eq_ok_iff path _ pathPart pathPart' query query' parsed hsplit hsplit' h).mp h'
    exact ⟨pathPart', hparts, by rw [hsplit', hquery']⟩
  · intro hgiven
    obtain ⟨pathPart', hparts, hsplit'⟩ := hgiven
    exact (parse_eq_ok_iff path _ pathPart pathPart' query query parsed hsplit hsplit' h).mpr
      ⟨hparts, rfl⟩

/-- A path with a decoded space and a file format is read back. -/
theorem csv_with_limit_is_read_back :
    DbPath.parse (DbPath.mk (some "main".toList) (some "users".toList) (.RelationData .Csv)
        [("where".toList, "a > 1".toList)]).toPath =
      .ok ⟨some "main".toList, some "users".toList, .RelationData .Csv,
        [("where".toList, "a > 1".toList)]⟩ :=
  (parse_toPath_iff "db:///main//users.csv?where=a+%3E+1".toList _ (by decide)).mpr
    ⟨by decide, by simp only [List.forall_mem_singleton, PlainPair]; decide⟩

/-- A decoded `&` comes back as the separator of two pairs. -/
theorem decoded_ampersand_is_not_read_back :
    ¬ ∀ (path : Str) (parsed : DbPath), DbPath.parse path = .ok parsed →
      DbPath.parse parsed.toPath = .ok parsed := by
  intro h
  have hparsed := h "/main/users.csv?where=a%26b".toList
    ⟨some "main".toList, some "users".toList, .RelationData .Csv,
      [("where".toList, "a&b".toList)]⟩ (by decide)
  exact absurd hparsed (by decide)

end FsspecDb
