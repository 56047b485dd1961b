import FsspecDb.Ddl.Parsers
import FsspecDb.Path.Canonical
import FsspecDb.Path.FormEncoding
import FsspecDb.Path.Weight

/-!
# A query behind a path

`DbPath::parse` looks for the protocol before it splits off the query. So a query changes
what a path addresses exactly if it has a protocol separator of its own; the query list is
then another one, which the slashes in it tell.
-/

namespace FsspecDb.Ddl
open Text

/- The query leaves failure, schema, relation and kind alone, and is what it is by itself. -/
def QueryKeepsPath (pathPart text : Str) : Prop :=
  ((DbPath.parse (pathPart ++ '?' :: text)).toOption = none ↔
      (DbPath.parse pathPart).toOption = none) ∧
    ∀ parsed plain, DbPath.parse (pathPart ++ '?' :: text) = .ok parsed →
      DbPath.parse pathPart = .ok plain →
      parsed.schema = plain.schema ∧ parsed.relation = plain.relation ∧
        parsed.kind = plain.kind ∧ parsed.query = decodeQuery text

/- What `parse` takes for the path in a query with a protocol. -/
def pathBehindProtocol (text : Str) : Str := (splitQuery (stripProtocol text)).1

/-- What is read behind a protocol has fewer slashes than the whole query. -/
theorem query_behind_protocol_ne (text before rest : Str)
    (htext : text = before ++ "://".toList ++ rest) :
    (splitQuery rest).2 ≠ decodeQuery text := by
  intro heq
  have hslashes := slashes_behind_protocol before rest
  have hsplit : text = before ++ ':' :: '/' :: '/' :: rest := by
    rw [htext, List.append_assoc]
    rfl
  rw [← hsplit, heq, queryWeight_decodeQuery isSlash (by decide) (by decide)] at hslashes
  omega

/-! ### What is parsed -/

theorem stripProtocol_append (pathPart text : Str) (hprotocol : ¬ "://".toList <:+: pathPart) :
    stripProtocol (pathPart ++ '?' :: text) =
      if "://".toList <:+: text then stripProtocol text else pathPart ++ '?' :: text := by
  have hsplit := splitOnce_append_cons pathPart text "://".toList '?' (by decide) hprotocol
  unfold stripProtocol
  rw [hsplit]
  cases htext : splitOnce text "://".toList with
  | none => rw [if_neg ((splitOnce_eq_none_iff text _ (by decide)).mp htext)]; rfl
  | some p =>
    have hoccurs : "://".toList <:+: text := by
      by_contra hnone
      rw [(splitOnce_eq_none_iff text _ (by decide)).mpr hnone] at htext
      cases htext
    rw [if_pos hoccurs]
    rfl

theorem classify_query (path path' : Str) (parts : List Str) (query : List (Str × Str)) :
    (DbPath.classify path parts query).toOption =
      (DbPath.classify path' parts []).toOption.map fun parsed => { parsed with query } := by
  match parts with
  | [] | [_] => rfl
  | [schema, relation] =>
    simp only [DbPath.classify]
    cases splitRelationFormat relation <;> rfl
  | [schema, relation, facet] =>
    simp only [DbPath.classify]
    split
    · rfl
    · cases DbFacet.parse facet <;> rfl
  | [schema, relation, facet, item] =>
    simp only [DbPath.classify]
    cases DbFacet.parse facet <;> rfl
  | _ :: _ :: _ :: _ :: _ :: _ => rfl

/-- The components decide, up to the query list. -/
theorem parse_same_parts (path path' pathPart : Str) (query : List (Str × Str))
    (hsplit : splitQuery (stripProtocol path) = (pathPart, query))
    (hsplit' : splitQuery (stripProtocol path') = (pathPart, [])) :
    (DbPath.parse path).toOption =
      (DbPath.parse path').toOption.map fun parsed => { parsed with query } := by
  rw [parse_eq path pathPart query hsplit, parse_eq path' pathPart [] hsplit']
  split
  · rfl
  · exact classify_query path path' _ query

theorem parse_eq_none_iff (path : Str) :
    (DbPath.parse path).toOption = none ↔ ¬ Supported (componentsOf (pathBehindProtocol path)) := by
  have hsplit : splitQuery (stripProtocol path) =
      (pathBehindProtocol path, (splitQuery (stripProtocol path)).2) := rfl
  rw [parse_eq path _ _ hsplit]
  split
  · next hempty =>
    have hshort : Supported (componentsOf (pathBehindProtocol path)) := by
      rw [hempty]
      exact .inl (Nat.zero_le 2)
    exact ⟨fun h => (by cases h), fun h => absurd hshort h⟩
  · next hne =>
    rw [← classified_eq_none_iff _ (splitQuery (stripProtocol path)).2,
      ← classify_eq_classified path _ _ hne, Option.map_eq_none_iff]

theorem pathBehindProtocol_plain (pathPart : Str) (hquery : '?' ∉ pathPart)
    (hprotocol : ¬ "://".toList <:+: pathPart) :
    splitQuery (stripProtocol pathPart) = (pathPart, []) := by
  have hstrip := stripProtocol_unchanged pathPart hprotocol
  rw [hstrip, splitQuery_eq, splitOnce_eq_none pathPart '?' [] hquery]

/-- A query leaves the path alone exactly if it has no protocol separator, or neither the
path nor the text that is parsed in its place has a supported shape. -/
theorem query_keeps_path_iff (pathPart text : Str) (hquery : '?' ∉ pathPart)
    (hprotocol : ¬ "://".toList <:+: pathPart) :
    QueryKeepsPath pathPart text ↔
      ¬ "://".toList <:+: text ∨
        (¬ Supported (componentsOf pathPart) ∧
          ¬ Supported (componentsOf (pathBehindProtocol text))) := by
  have hplain := pathBehindProtocol_plain pathPart hquery hprotocol
  have hplainFails : (DbPath.parse pathPart).toOption = none ↔
      ¬ Supported (componentsOf pathPart) := by
    have hfails := parse_eq_none_iff pathPart
    rwa [pathBehindProtocol, hplain] at hfails
  by_cases htext : "://".toList <:+: text
  · have hstrip := stripProtocol_append pathPart text hprotocol
    rw [if_pos htext] at hstrip
    have hfails : (DbPath.parse (pathPart ++ '?' :: text)).toOption = none ↔
        ¬ Supported (componentsOf (pathBehindProtocol text)) := by
      rw [parse_eq_none_iff, pathBehindProtocol, pathBehindProtocol, hstrip]
    rw [or_iff_right (not_not.mpr htext)]
    constructor
    · intro hkeeps
      obtain ⟨hboth, hsame⟩ := hkeeps
      cases hparsed : DbPath.parse (pathPart ++ '?' :: text) with
      | error err =>
        rw [hparsed] at hboth hfails
        exact ⟨hplainFails.mp (hboth.mp rfl), hfails.mp rfl⟩
      | ok parsed =>
        cases hplainParsed : DbPath.parse pathPart with
        | error err =>
          rw [hparsed, hplainParsed] at hboth
          cases hboth.mpr rfl
        | ok plain =>
          -- the query list that was parsed is another one
          obtain ⟨_, _, _, hqueries⟩ := hsame parsed plain hparsed hplainParsed
          have hactual := (parse_ok _ _ _ parsed (by rw [hstrip]) hparsed).2.1
          cases hsplit : splitOnce text "://".toList with
          | none => exact absurd htext ((splitOnce_eq_none_iff text _ (by decide)).mp hsplit)
          | some p =>
            have hcut := splitOnce_eq_some text "://".toList p.1 p.2 hsplit
            have hrest : stripProtocol text = p.2 := by
              rw [stripProtocol, hsplit]
            rw [hrest] at hactual
            exact absurd (hactual.symm.trans hqueries) (query_behind_protocol_ne text p.1 p.2 hcut)
    · intro hunsupported
      have hnone := hfails.mpr hunsupported.2
      refine ⟨iff_of_true hnone (hplainFails.mpr hunsupported.1), ?_⟩
      intro parsed plain hparsed _
      rw [hparsed] at hnone
      cases hnone
  · rw [or_iff_left_of_imp fun _ => htext]
    have hstrip := stripProtocol_append pathPart text hprotocol
    rw [if_neg htext] at hstrip
    have hsplit : splitQuery (stripProtocol (pathPart ++ '?' :: text)) =
        (pathPart, decodeQuery text) := by
      rw [hstrip, splitQuery_eq, splitOnce_append pathPart text '?' hquery]
    have hparse := parse_same_parts _ pathPart pathPart _ hsplit hplain
    refine ⟨fun _ => htext, fun _ => ⟨?_, ?_⟩⟩
    · rw [hparse, Option.map_eq_none_iff]
    · intro parsed plain hparsed hplainParsed
      rw [hparsed, hplainParsed] at hparse
      have heq : parsed = { plain with query := decodeQuery text } := Option.some.inj hparse
      rw [heq]
      exact ⟨rfl, rfl, rfl, rfl⟩

theorem query_keeps_path_iff_limit :
    QueryKeepsPath "/main/users.csv".toList "limit=5".toList :=
  (query_keeps_path_iff "/main/users.csv".toList "limit=5".toList (by decide) (by decide)).mpr
    (.inl (by decide))

/-- A URL inside a predicate makes another relation of it. -/
theorem url_in_query_changes_path :
    ¬ QueryKeepsPath "/main/users.csv".toList "where=site='http://x/y'".toList ∧
      DbPath.parse "/main/users.csv?where=site='http://x/y'".toList =
        .ok ⟨some "x".toList, some "y'".toList, .Relation, []⟩ := by
  refine ⟨fun hkeeps => ?_, by decide⟩
  have hsame := hkeeps.2 ⟨some "x".toList, some "y'".toList, .Relation, []⟩
    ⟨some "main".toList, some "users".toList, .RelationData .Csv, []⟩ (by decide) (by decide)
  exact absurd hsame.1 (by decide)

end FsspecDb.Ddl
