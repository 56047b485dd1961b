import FsspecDb.Ddl.Named
import FsspecDb.Ddl.UrlText
import FsspecDb.Path.Builders
import FsspecDb.Path.FormEncoding

/-!
# The two parsers of a path (path.rs, python.py)

`DbPath::parse` and `_parse_path` classify components in the same way, and the result
says which components they were. So they agree on a path where they cut it alike.
-/

namespace FsspecDb.Ddl
open Text

/-- The result of `DbPath::parse` in the words of `_Path`. -/
def DbPath.asPython (path : DbPath) : Path :=
  match path.kind with
  | .Root => ⟨path.schema, path.relation, .root, none, none, path.query⟩
  | .Schema => ⟨path.schema, path.relation, .schema, none, none, path.query⟩
  | .Relation => ⟨path.schema, path.relation, .relation, none, none, path.query⟩
  | .Facet facet item => ⟨path.schema, path.relation, .facet, item, some facet.asStr, path.query⟩
  | .RelationData format =>
    ⟨path.schema, path.relation, .data, none, some format.extension, path.query⟩
  | .ViewDefinition => ⟨path.schema, path.relation, .definition, none, none, path.query⟩

/-- Both parsers fail, or both succeed with the same parts of a path. -/
def ParsersAgree (netlocError : Str → Option Str) (path : Str) : Prop :=
  (DbPath.parse path).toOption.map DbPath.asPython = (parsePath netlocError path).toOption

/-- A shape that `_parse_path` and `DbPath::parse` know. -/
def Supported (parts : List Str) : Prop :=
  parts.length ≤ 2 ∨ ∃ schema relation tail, parts = schema :: relation :: tail ∧ FacetTail tail

/-! ### What the components are classified as -/

/-- What either parser makes of components and a query. -/
def classified (parts : List Str) (query : List (Str × Str)) : Option Path :=
  if parts = [] then some ⟨none, none, .root, none, none, query⟩
  else (classifyParts [] parts query).toOption

/-- The components that are classified as the path. -/
def Path.parts (path : Path) : List Str :=
  let relation := path.relation.getD []
  match path.kind with
  | .root => []
  | .schema => [path.schema.getD []]
  | .relation => [path.schema.getD [], relation]
  | .data => [path.schema.getD [], relation ++ '.' :: path.format.getD []]
  | .definition => [path.schema.getD [], relation, "definition.sql".toList]
  | .facet => [path.schema.getD [], relation, path.format.getD []] ++ path.item.toList

theorem classify_eq_classified (path : Str) (parts : List Str) (query : List (Str × Str))
    (hne : parts ≠ []) :
    (DbPath.classify path parts query).toOption.map DbPath.asPython = classified parts query := by
  rw [classified, if_neg hne]
  match parts with
  | [] => exact absurd rfl hne
  | [_] => rfl
  | [schema, relation] =>
    simp only [DbPath.classify, classifyParts]
    cases splitRelationFormat relation <;> rfl
  | [schema, relation, facet] =>
    simp only [DbPath.classify, classifyParts]
    split_ifs with hdefinition hfacet
    · rfl
    · obtain ⟨known, hknown⟩ := Option.isSome_iff_exists.mp hfacet
      rw [hknown, (DbFacet.parse_eq_some facet known).mp hknown]
      rfl
    · rw [Option.not_isSome_iff_eq_none.mp hfacet]
      rfl
  | [schema, relation, facet, item] =>
    simp only [DbPath.classify, classifyParts]
    split_ifs with hfacet
    · obtain ⟨known, hknown⟩ := Option.isSome_iff_exists.mp hfacet
      rw [hknown, (DbFacet.parse_eq_some facet known).mp hknown]
      rfl
    · rw [Option.not_isSome_iff_eq_none.mp hfacet]
      rfl
  | _ :: _ :: _ :: _ :: _ :: _ => rfl

theorem classifyParts_eq_classified (path : Str) (parts : List Str) (query : List (Str × Str))
    (hne : parts ≠ []) : (classifyParts path parts query).toOption = classified parts query := by
  rw [classified, if_neg hne]
  match parts with
  | [] | [_] | _ :: _ :: _ :: _ :: _ :: _ => rfl
  | [schema, relation] => simp only [classifyParts]
  | [schema, relation, facet] =>
    simp only [classifyParts]
    split_ifs <;> rfl
  | [schema, relation, facet, item] =>
    simp only [classifyParts]
    split_ifs <;> rfl

/-- A classified path has the components it was made from. -/
theorem classified_eq_some (parts : List Str) (query : List (Str × Str)) (path : Path)
    (h : classified parts query = some path) :
    path.parts = parts ∧ path.query = query ∧ Supported parts := by
  unfold classified at h
  match parts with
  | [] =>
    rw [if_pos rfl] at h
    rw [← Option.some.inj h]
    exact ⟨rfl, rfl, .inl (by simp)⟩
  | [_] =>
    rw [← Option.some.inj h]
    exact ⟨rfl, rfl, .inl (by simp)⟩
  | [schema, relation] =>
    simp only [reduceCtorEq, if_false, classifyParts] at h
    cases hformat : splitRelationFormat relation with
    | none =>
      rw [hformat] at h
      rw [← Option.some.inj h]
      exact ⟨rfl, rfl, .inl (by simp)⟩
    | some p =>
      rw [hformat] at h
      rw [← Option.some.inj h, (splitRelationFormat_eq_some_iff relation p.1 p.2).mp hformat]
      exact ⟨rfl, rfl, .inl (by simp)⟩
  | [schema, relation, facet] =>
    simp only [reduceCtorEq, if_false, classifyParts] at h
    split_ifs at h with hdefinition hfacet
    · rw [← Option.some.inj h, hdefinition]
      exact ⟨rfl, rfl, .inr ⟨schema, relation, _, rfl, .inl rfl⟩⟩
    · obtain ⟨known, hknown⟩ := Option.isSome_iff_exists.mp hfacet
      rw [← Option.some.inj h, (DbFacet.parse_eq_some facet known).mp hknown]
      exact ⟨rfl, rfl, .inr ⟨schema, relation, _, rfl, .inr ⟨known, .inl rfl⟩⟩⟩
    · simp [Except.toOption] at h
  | [schema, relation, facet, item] =>
    simp only [reduceCtorEq, if_false, classifyParts] at h
    split_ifs at h with hfacet
    · obtain ⟨known, hknown⟩ := Option.isSome_iff_exists.mp hfacet
      rw [← Option.some.inj h, (DbFacet.parse_eq_some facet known).mp hknown]
      exact ⟨rfl, rfl, .inr ⟨schema, relation, _, rfl, .inr ⟨known, .inr ⟨item, rfl⟩⟩⟩⟩
    · simp [Except.toOption] at h
  | _ :: _ :: _ :: _ :: _ :: _ => simp [classifyParts, Except.toOption] at h

theorem classified_of_supported (parts : List Str) (query : List (Str × Str))
    (h : Supported parts) : ∃ path, classified parts query = some path := by
  rcases h with hshort | ⟨schema, relation, tail, rfl, rfl | ⟨facet, rfl | ⟨item, rfl⟩⟩⟩
  · match parts with
    | [] | [_] => exact ⟨_, rfl⟩
    | [schema, relation] =>
      rw [classified, if_neg (by simp), classifyParts]
      cases splitRelationFormat relation <;> exact ⟨_, rfl⟩
    | _ :: _ :: _ :: _ => simp at hshort
  · exact ⟨_, rfl⟩
  · cases facet <;> exact ⟨_, rfl⟩
  · cases facet <;> exact ⟨_, rfl⟩

theorem classified_eq_none_iff (parts : List Str) (query : List (Str × Str)) :
    classified parts query = none ↔ ¬ Supported parts := by
  constructor
  · intro h hsupported
    obtain ⟨path, hpath⟩ := classified_of_supported parts query hsupported
    rw [h] at hpath
    simp at hpath
  · intro h
    cases hpath : classified parts query with
    | none => rfl
    | some path => exact absurd (classified_eq_some parts query path hpath).2.2 h

/-- The classification is injective, apart from the shapes that it does not know. -/
theorem classified_eq_iff (parts parts' : List Str) (query query' : List (Str × Str)) :
    classified parts query = classified parts' query' ↔
      (parts' = parts ∧ query' = query) ∨ (¬ Supported parts ∧ ¬ Supported parts') := by
  constructor
  · intro h
    cases hpath : classified parts query with
    | none =>
      exact .inr ⟨(classified_eq_none_iff parts query).mp hpath,
        (classified_eq_none_iff parts' query').mp (h ▸ hpath)⟩
    | some path =>
      obtain ⟨hparts, hquery, _⟩ := classified_eq_some parts query path hpath
      obtain ⟨hparts', hquery', _⟩ := classified_eq_some parts' query' path (h ▸ hpath)
      exact .inl ⟨hparts'.symm.trans hparts, hquery'.symm.trans hquery⟩
  · rintro (⟨rfl, rfl⟩ | ⟨h, h'⟩)
    · rfl
    · rw [(classified_eq_none_iff parts query).mpr h, (classified_eq_none_iff parts' query').mpr h']

/-! ### Agreement -/

theorem native_classified (path : Str) :
    (DbPath.parse path).toOption.map DbPath.asPython =
      classified (PathParser.native.components path) (splitQuery (stripProtocol path)).2 := by
  simp only [DbPath.parse, PathParser.components]
  split
  · rfl
  · exact classify_eq_classified path _ _ (List.splitOn_ne_nil _ _)

theorem python_classified (netlocError : Str → Option Str) (path : Str) :
    (parsePath netlocError path).toOption =
      (urlsplit netlocError path).toOption.bind fun url =>
        classified ((PathParser.python netlocError).components path) (decodeQuery url.query) := by
  simp only [parsePath, PathParser.components]
  cases urlsplit netlocError path with
  | error err => rfl
  | ok url =>
    simp only [Except.toOption, Option.bind_some, Urllib.parseQsl_eq]
    by_cases hclean : strip (stripProtocol url.path) '/' = []
    · rw [if_pos hclean, if_pos hclean]
      rfl
    · rw [if_neg hclean, if_neg hclean]
      exact classifyParts_eq_classified path _ _ (List.splitOn_ne_nil _ _)

end FsspecDb.Ddl
