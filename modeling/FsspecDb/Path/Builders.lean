import FsspecDb.Path.Components

/-!
# The path builders (path.rs)

Each builder joins names into a path. For names that have no separators the path can be
taken apart again, so no two calls make the same path.
-/

namespace FsspecDb
open Text

/-- A call of one of the path builders of `DbPath`. -/
inductive BuilderCall where
  | schemaPath (schema : Str)
  | relationPath (schema relation : Str)
  | facetPath (schema relation : Str) (facet : DbFacet)
  | facetItemPath (schema relation : Str) (facet : DbFacet) (item : Str)
  | relationDataPath (schema relation : Str) (format : DataFormat)
  | viewDefinitionPath (schema relation : Str)
  deriving DecidableEq

namespace BuilderCall

def path : BuilderCall → Str
  | schemaPath schema => DbPath.schemaPath schema
  | relationPath schema relation => DbPath.relationPath schema relation
  | facetPath schema relation facet => DbPath.facetPath schema relation facet
  | facetItemPath schema relation facet item => DbPath.facetItemPath schema relation facet item
  | relationDataPath schema relation format => DbPath.relationDataPath schema relation format
  | viewDefinitionPath schema relation => DbPath.viewDefinitionPath schema relation

/-- What the path is to be parsed into. -/
def dbPath : BuilderCall → DbPath
  | schemaPath schema => ⟨some schema, none, .Schema, []⟩
  | relationPath schema relation => ⟨some schema, some relation, .Relation, []⟩
  | facetPath schema relation facet => ⟨some schema, some relation, .Facet facet none, []⟩
  | facetItemPath schema relation facet item =>
    ⟨some schema, some relation, .Facet facet (some item), []⟩
  | relationDataPath schema relation format =>
    ⟨some schema, some relation, .RelationData format, []⟩
  | viewDefinitionPath schema relation => ⟨some schema, some relation, .ViewDefinition, []⟩

def components : BuilderCall → List Str
  | schemaPath schema => [schema]
  | relationPath schema relation => [schema, relation]
  | facetPath schema relation facet => [schema, relation, facet.asStr]
  | facetItemPath schema relation facet item => [schema, relation, facet.asStr, item]
  | relationDataPath schema relation format => [schema, relation ++ '.' :: format.extension]
  | viewDefinitionPath schema relation => [schema, relation, "definition.sql".toList]

end BuilderCall

/-- A name without separators that no trimming shortens at its end. -/
def PathName (name : Str) : Prop :=
  name ≠ [] ∧ '/' ∉ name ∧ '?' ∉ name ∧ ¬ EndsBlank name

/-- The relation's name does not look like that of a data file. -/
def NoFormatSuffix (relation : Str) : Prop :=
  ∀ format : DataFormat, ¬ '.' :: format.extension <:+ relation

def BuilderCall.Valid : BuilderCall → Prop
  | schemaPath schema => PathName schema
  | relationPath schema relation => PathName schema ∧ PathName relation ∧ NoFormatSuffix relation
  | facetPath schema relation _ => PathName schema ∧ PathName relation
  | facetItemPath schema relation _ item => PathName schema ∧ PathName relation ∧ PathName item
  | relationDataPath schema relation _ => PathName schema ∧ PathName relation
  | viewDefinitionPath schema relation => PathName schema ∧ PathName relation

/-! ### Names in paths -/

instance (name : Str) : Decidable (PathName name) := inferInstanceAs (Decidable (_ ∧ _))

theorem pathName_asStr (facet : DbFacet) : PathName facet.asStr := by
  cases facet <;> decide

theorem pathName_dataFile (relation : Str) (format : DataFormat) (h : PathName relation) :
    PathName (relation ++ '.' :: format.extension) := by
  obtain ⟨_, hslash, hquery, _⟩ := h
  have hextension : '/' ∉ '.' :: format.extension ∧ '?' ∉ '.' :: format.extension ∧
      ¬ EndsBlank ('.' :: format.extension) := by
    cases format <;> decide
  refine ⟨by simp, ?_, ?_, ?_⟩
  · rw [List.mem_append, not_or]
    exact ⟨hslash, hextension.1⟩
  · rw [List.mem_append, not_or]
    exact ⟨hquery, hextension.2.1⟩
  · rw [endsBlank_append _ _ (by simp)]
    exact hextension.2.2

theorem splitRelationFormat_eq_none (relation : Str) (h : NoFormatSuffix relation) :
    splitRelationFormat relation = none := by
  cases hsplit : splitRelationFormat relation with
  | none => rfl
  | some p =>
    obtain ⟨name, format⟩ := p
    have hname := (splitRelationFormat_eq_some_iff relation name format).mp hsplit
    exact absurd ⟨name, hname.symm⟩ (h format)

/-- What a component of a path without its query is. -/
def Segment (part : Str) : Prop := Component part ∧ '?' ∉ part

theorem PathName.segment {name : Str} (h : PathName name) : Segment name :=
  ⟨⟨h.1, h.2.1⟩, h.2.2.1⟩

theorem question_not_mem_slashed (parts : List Str) (h : ∀ part ∈ parts, Segment part) :
    '?' ∉ slashed parts := by
  rw [slashed, List.mem_flatMap]
  intro hgiven
  obtain ⟨part, hpart, hmem⟩ := hgiven
  rw [List.mem_cons] at hmem
  exact hmem.elim (by decide) (h part hpart).2

theorem endsBlank_slashed_concat (init : List Str) (last : Str) (hne : last ≠ []) :
    EndsBlank (slashed (init ++ [last])) ↔ EndsBlank last := by
  rw [slashed, List.flatMap_append, List.flatMap_singleton, List.append_cons,
    endsBlank_append _ _ hne]

theorem endsBlank_slashed (parts : List Str) (hne : parts ≠ [])
    (h : ∀ part ∈ parts, PathName part) : ¬ EndsBlank (slashed parts) := by
  obtain ⟨hlast, _, _, hblank⟩ := h _ (List.getLast_mem hne)
  rw [← List.dropLast_append_getLast hne, endsBlank_slashed_concat _ _ hlast]
  exact hblank

/-- A path made of segments is classified by them. -/
theorem parse_slashed (parts : List Str) (hne : parts ≠ []) (h : ∀ part ∈ parts, Segment part)
    (hblank : ¬ EndsBlank (slashed parts)) :
    DbPath.parse (slashed parts) = DbPath.classify (slashed parts) parts [] := by
  have hparts : ∀ part ∈ parts, Component part := fun part hpart => (h part hpart).1
  have hquery := question_not_mem_slashed parts h
  have hsplit : splitQuery (stripProtocol (slashed parts)) = (slashed parts, []) := by
    rw [stripProtocol_slashed parts hparts, splitQuery, splitOnce_eq_none _ '?' [] hquery]
  rw [parse_eq _ _ _ hsplit, componentsOf_slashed parts hparts hblank, if_neg hne]

namespace BuilderCall

theorem path_eq_slashed (call : BuilderCall) : call.path = slashed call.components := by
  cases call <;> simp [path, components, slashed, DbPath.schemaPath, DbPath.relationPath,
    DbPath.facetPath, DbPath.facetItemPath, DbPath.relationDataPath, DbPath.viewDefinitionPath]

theorem pathName_components (call : BuilderCall) (h : call.Valid) :
    ∀ part ∈ call.components, PathName part := by
  cases call with
  | schemaPath schema =>
    rw [components, List.forall_mem_singleton]
    exact h
  | relationPath schema relation =>
    simp only [components, List.forall_mem_cons]
    exact ⟨h.1, h.2.1, by simp⟩
  | facetPath schema relation facet =>
    simp only [components, List.forall_mem_cons]
    exact ⟨h.1, h.2, pathName_asStr facet, by simp⟩
  | facetItemPath schema relation facet item =>
    simp only [components, List.forall_mem_cons]
    exact ⟨h.1, h.2.1, pathName_asStr facet, h.2.2, by simp⟩
  | relationDataPath schema relation format =>
    simp only [components, List.forall_mem_cons]
    exact ⟨h.1, pathName_dataFile relation format h.2, by simp⟩
  | viewDefinitionPath schema relation =>
    simp only [components, List.forall_mem_cons]
    exact ⟨h.1, h.2, by decide, by simp⟩

/-- What the parser needs: only the last name is trimmed, and a relation's name is looked
at for a format. -/
structure Parsable (call : BuilderCall) : Prop where
  segments : ∀ part ∈ call.components, Segment part
  last : ∀ part ∈ call.components.getLast?, ¬ EndsBlank part
  suffix : ∀ schema relation, call = relationPath schema relation → NoFormatSuffix relation

theorem Valid.parsable {call : BuilderCall} (h : call.Valid) : call.Parsable := by
  have hnames := pathName_components call h
  refine ⟨fun part hpart => (hnames part hpart).segment,
    fun part hpart => (hnames part (List.mem_of_mem_getLast? hpart)).2.2.2, ?_⟩
  intro schema relation heq
  subst heq
  exact h.2.2

theorem classify_components (call : BuilderCall) (h : call.Parsable) (path : Str) :
    DbPath.classify path call.components [] = .ok call.dbPath := by
  cases call with
  | schemaPath schema => rfl
  | relationPath schema relation =>
    have hsuffix := h.suffix schema relation rfl
    simp only [components, DbPath.classify, splitRelationFormat_eq_none relation hsuffix, dbPath]
  | facetPath schema relation facet =>
    have hdefinition : facet.asStr ≠ "definition.sql".toList := by cases facet <;> decide
    simp only [components, DbPath.classify, (DbFacet.parse_eq_some _ facet).mpr rfl, dbPath,
      if_neg hdefinition]
  | facetItemPath schema relation facet item =>
    simp only [components, DbPath.classify, (DbFacet.parse_eq_some _ facet).mpr rfl, dbPath]
  | relationDataPath schema relation format =>
    simp only [components, DbPath.classify,
      (splitRelationFormat_eq_some_iff _ relation format).mpr rfl, dbPath]
  | viewDefinitionPath schema relation => rfl

theorem Parsable.parse_path {call : BuilderCall} (h : call.Parsable) :
    DbPath.parse call.path = .ok call.dbPath := by
  have hne : call.components ≠ [] := by cases call <;> simp [components]
  have hblank : ¬ EndsBlank (slashed call.components) := by
    obtain ⟨hlast, _⟩ := (h.segments _ (List.getLast_mem hne)).1
    rw [← List.dropLast_append_getLast hne, endsBlank_slashed_concat _ _ hlast]
    exact h.last _ (List.getLast?_eq_some_getLast hne)
  rw [path_eq_slashed, parse_slashed _ hne h.segments hblank, classify_components call h]

theorem toPath_dbPath (call : BuilderCall) : call.dbPath.toPath = call.path := by
  cases call <;> rfl

theorem dbPath_injective (call other : BuilderCall) (h : call.dbPath = other.dbPath) :
    call = other := by
  cases call <;> cases other <;> simp_all [dbPath]

/-- The path of a call is parsed into the kind and the names that were passed, is its
own canonical form, and is the path of no other call. -/
theorem namespace_is_unambiguous (call : BuilderCall) (h : call.Valid) :
    DbPath.parse call.path = .ok call.dbPath ∧ call.dbPath.toPath = call.path ∧
      ∀ other : BuilderCall, other.Valid → other.path = call.path → other = call := by
  refine ⟨h.parsable.parse_path, toPath_dbPath call, fun other hother hpath => ?_⟩
  have hparse := hother.parsable.parse_path
  rw [hpath, h.parsable.parse_path] at hparse
  exact dbPath_injective other call (Except.ok.inj hparse).symm

theorem columns_of_columns_is_unambiguous :
    DbPath.parse "/main/columns/columns/definition.sql".toList =
        .ok ⟨some "main".toList, some "columns".toList,
          .Facet .Columns (some "definition.sql".toList), []⟩ ∧
      ∀ other : BuilderCall, other.Valid →
        other.path = "/main/columns/columns/definition.sql".toList →
        other = .facetItemPath "main".toList "columns".toList .Columns "definition.sql".toList := by
  have h := namespace_is_unambiguous
    (.facetItemPath "main".toList "columns".toList .Columns "definition.sql".toList)
    ⟨by decide, by decide, by decide⟩
  exact ⟨h.1, h.2.2⟩

end BuilderCall

end FsspecDb
