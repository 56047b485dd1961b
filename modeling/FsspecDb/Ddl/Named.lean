import FsspecDb.Ddl.Paths

/-!
# What a path names

The two parsers cut a path into components and classify these alike. What the
component list says about schema and relation is stated once here.
-/

namespace FsspecDb.Ddl
open Text

inductive NamedKind where
  | relation
  | data
  | other
  deriving Repr, DecidableEq

/-- A relation of a schema, and whether the path is that of the relation, of its data,
or of something below it. -/
structure Named where
  schema : Str
  relation : Str
  kind : NamedKind
  deriving Repr, DecidableEq

/-- The filesystem's own parser: `DbPath::parse` or `_parse_path`. -/
inductive PathParser where
  | native
  | python (netlocError : Str → Option Str)

def DbPath.named (path : DbPath) : Option Named :=
  match path.schema, path.relation with
  | some schema, some relation =>
    some ⟨schema, relation,
      match path.kind with
      | .Relation => .relation
      | .RelationData _ => .data
      | _ => .other⟩
  | _, _ => none

def Path.named (path : Path) : Option Named :=
  match path.schema, path.relation with
  | some schema, some relation =>
    some ⟨schema, relation,
      match path.kind with
      | .relation => .relation
      | .data => .data
      | _ => .other⟩
  | _, _ => none

def PathParser.named (parser : PathParser) (path : Str) : Option Named :=
  match parser with
  | .native => (DbPath.parse path).toOption.bind DbPath.named
  | .python netlocError => (parsePath netlocError path).toOption.bind Path.named

def PathParser.components (parser : PathParser) (path : Str) : List Str :=
  match parser with
  | .native =>
    let clean := normalizePath (splitQuery (stripProtocol path)).1
    if clean = ['/'] then [] else (trimStartMatches clean '/').splitOn '/'
  | .python netlocError =>
    match urlsplit netlocError path with
    | .error _ => []
    | .ok parsed =>
      let clean := strip (stripProtocol parsed.path) '/'
      if clean = [] then [] else clean.splitOn '/'

/-- What both parsers make of the components. -/
def namedOf (parts : List Str) : Option Named :=
  match parts with
  | [schema, relation] =>
    match splitRelationFormat relation with
    | some (name, _) => some ⟨schema, name, .data⟩
    | none => some ⟨schema, relation, .relation⟩
  | [schema, relation, facet] =>
    if facet = "definition.sql".toList ∨ (DbFacet.parse facet).isSome then
      some ⟨schema, relation, .other⟩
    else none
  | [schema, relation, facet, _] =>
    if (DbFacet.parse facet).isSome then some ⟨schema, relation, .other⟩ else none
  | _ => none

theorem named_classify (path : Str) (parts : List Str) (query : List (Str × Str)) :
    (DbPath.classify path parts query).toOption.bind DbPath.named = namedOf parts := by
  match parts with
  | [] | [_] => rfl
  | [schema, relation] =>
    simp only [DbPath.classify, namedOf]
    cases splitRelationFormat relation <;> rfl
  | [schema, relation, facet] =>
    simp only [DbPath.classify, namedOf]
    by_cases hdef : facet = "definition.sql".toList
    · rw [if_pos hdef, if_pos (.inl hdef)]
      rfl
    · rw [if_neg hdef]
      cases hfacet : DbFacet.parse facet with
      | none =>
        rw [if_neg (by simp only [hdef, Option.isSome_none, Bool.false_eq_true, or_self,
          not_false_eq_true])]
        rfl
      | some _ =>
        rw [if_pos (.inr rfl)]
        rfl
  | [schema, relation, facet, item] =>
    simp only [DbPath.classify, namedOf]
    cases DbFacet.parse facet <;> rfl
  | _ :: _ :: _ :: _ :: _ :: _ => rfl

theorem named_classifyParts (path : Str) (parts : List Str) (query : List (Str × Str)) :
    (classifyParts path parts query).toOption.bind Path.named = namedOf parts := by
  match parts with
  | [] | [_] => rfl
  | [schema, relation] =>
    simp only [classifyParts, namedOf]
    cases splitRelationFormat relation <;> rfl
  | [schema, relation, facet] =>
    simp only [classifyParts, namedOf]
    by_cases hdef : facet = "definition.sql".toList
    · rw [if_pos hdef, if_pos (.inl hdef)]
      rfl
    · rw [if_neg hdef]
      by_cases hfacet : (DbFacet.parse facet).isSome = true
      · rw [if_pos hfacet, if_pos (.inr hfacet)]
        rfl
      · rw [if_neg hfacet, if_neg (not_or.mpr ⟨hdef, hfacet⟩)]
        rfl
  | [schema, relation, facet, item] =>
    simp only [classifyParts, namedOf]
    split <;> rfl
  | _ :: _ :: _ :: _ :: _ :: _ => rfl

/-- Either parser says what `namedOf` says of its components. -/
theorem named_eq_namedOf (parser : PathParser) (path : Str) :
    parser.named path = namedOf (parser.components path) := by
  cases parser with
  | native =>
    simp only [PathParser.named, PathParser.components, DbPath.parse]
    split
    · rfl
    · exact named_classify _ _ _
  | python netlocError =>
    simp only [PathParser.named, PathParser.components, parsePath]
    cases urlsplit netlocError path with
    | error err => rfl
    | ok parsed =>
      dsimp only
      split
      · rfl
      · exact named_classifyParts _ _ _

/-! ### What a component list names -/

theorem namedOf_pair (schema last : Str) :
    namedOf [schema, last] =
      match splitRelationFormat last with
      | some (name, _) => some ⟨schema, name, .data⟩
      | none => some ⟨schema, last, .relation⟩ := rfl

/- Only two components name a relation or its data. -/
theorem pair_of_namedOf (parts : List Str) (schema relation : Str) (kind : NamedKind)
    (h : namedOf parts = some ⟨schema, relation, kind⟩) (hkind : kind ≠ .other) :
    ∃ last, parts = [schema, last] := by
  match parts with
  | [] | [_] | _ :: _ :: _ :: _ :: _ :: _ => simp [namedOf] at h
  | [schema', last] =>
    rw [namedOf_pair] at h
    split at h <;> exact ⟨last, by rw [(Named.mk.inj (Option.some.inj h)).1]⟩
  | [schema', relation', facet] =>
    simp only [namedOf] at h
    split at h
    · exact absurd (Named.mk.inj (Option.some.inj h)).2.2.symm hkind
    · simp at h
  | [schema', relation', facet, item] =>
    simp only [namedOf] at h
    split at h
    · exact absurd (Named.mk.inj (Option.some.inj h)).2.2.symm hkind
    · simp at h

theorem namedOf_relation_iff (parts : List Str) (schema relation : Str) :
    namedOf parts = some ⟨schema, relation, .relation⟩ ↔
      parts = [schema, relation] ∧ splitRelationFormat relation = none := by
  constructor
  · intro h
    obtain ⟨last, rfl⟩ := pair_of_namedOf parts schema relation _ h (by simp)
    rw [namedOf_pair] at h
    cases hformat : splitRelationFormat last with
    | none =>
      simp only [hformat, Option.some.injEq, Named.mk.injEq, and_true, true_and] at h
      rw [← h]
      exact ⟨rfl, hformat⟩
    | some p => simp [hformat] at h
  · intro hgiven
    obtain ⟨rfl, h⟩ := hgiven
    rw [namedOf_pair, h]

theorem namedOf_data_iff (parts : List Str) (schema relation : Str) :
    namedOf parts = some ⟨schema, relation, .data⟩ ↔
      ∃ format : DataFormat, parts = [schema, relation ++ '.' :: format.extension] := by
  constructor
  · intro h
    obtain ⟨last, rfl⟩ := pair_of_namedOf parts schema relation _ h (by simp)
    rw [namedOf_pair] at h
    cases hformat : splitRelationFormat last with
    | none => simp [hformat] at h
    | some p =>
      simp only [hformat, Option.some.injEq, Named.mk.injEq, and_true, true_and] at h
      rw [← h]
      exact ⟨p.2, by rw [← (splitRelationFormat_eq_some_iff last p.1 p.2).mp hformat]⟩
  · intro hgiven
    obtain ⟨format, rfl⟩ := hgiven
    rw [namedOf_pair, (splitRelationFormat_eq_some_iff _ relation format).mpr rfl]

def FacetTail (tail : List Str) : Prop :=
  tail = ["definition.sql".toList] ∨
    ∃ facet : DbFacet, tail = [facet.asStr] ∨ ∃ item, tail = [facet.asStr, item]

theorem namedOf_other_iff (parts : List Str) (schema relation : Str) :
    namedOf parts = some ⟨schema, relation, .other⟩ ↔
      ∃ tail, parts = schema :: relation :: tail ∧ FacetTail tail := by
  constructor
  · intro h
    match parts with
    | [] | [_] | _ :: _ :: _ :: _ :: _ :: _ => simp [namedOf] at h
    | [schema', last] =>
      rw [namedOf_pair] at h
      split at h <;> simp at h
    | [schema', relation', facet] =>
      simp only [namedOf] at h
      split at h
      · next hfacet =>
        simp only [Option.some.injEq, Named.mk.injEq, and_true] at h
        obtain ⟨rfl, rfl⟩ := h
        refine ⟨[facet], rfl, ?_⟩
        rcases hfacet with rfl | hsome
        · exact .inl rfl
        · obtain ⟨f, hf⟩ := Option.isSome_iff_exists.mp hsome
          exact .inr ⟨f, .inl (by rw [(DbFacet.parse_eq_some facet f).mp hf])⟩
      · simp at h
    | [schema', relation', facet, item] =>
      simp only [namedOf] at h
      split at h
      · next hsome =>
        simp only [Option.some.injEq, Named.mk.injEq, and_true] at h
        obtain ⟨rfl, rfl⟩ := h
        obtain ⟨f, hf⟩ := Option.isSome_iff_exists.mp hsome
        exact ⟨[facet, item], rfl,
          .inr ⟨f, .inr ⟨item, by rw [(DbFacet.parse_eq_some facet f).mp hf]⟩⟩⟩
      · simp at h
  · intro hgiven
    obtain ⟨tail, rfl, rfl | ⟨facet, rfl | ⟨item, rfl⟩⟩⟩ := hgiven
    · rfl
    · simp [namedOf, (DbFacet.parse_eq_some _ facet).mpr rfl]
    · simp [namedOf, (DbFacet.parse_eq_some _ facet).mpr rfl]

end FsspecDb.Ddl
