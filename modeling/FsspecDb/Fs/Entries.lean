import FsspecDb.Fs.Metadata
import FsspecDb.Lib.Checked
import FsspecDb.Lib.Keyed
import FsspecDb.Path.Canonical
import Mathlib.Data.List.Nodup

/-!
# Entries of a listing and their metadata (fs.rs)

`ls_db` builds the entries of a directory, and `info_db` parses the path of an entry and
builds its metadata again.
-/

namespace FsspecDb.Fs
open Text

variable {σ Stream : Type}

/-- Names of one listing that can be told apart and stand in a path. -/
def NamesOk (names : List Str) : Prop := names.Nodup ∧ ∀ name ∈ names, PathName name

instance (names : List Str) : Decidable (NamesOk names) := inferInstanceAs (Decidable (_ ∧ _))

/-- The names of the database stand in paths, and `relation_info` returns what
`list_relations` lists. -/
structure WellNamed (db : Database σ Stream) (s : σ) : Prop where
  schemas : ∀ schemas, db.listSchemas s = .ok schemas → NamesOk (schemas.map (·.name))
  relations : ∀ schema relations, db.listRelations s schema = .ok relations →
    NamesOk (relations.map (·.name))
  columns : ∀ schema relation columns, db.listColumns s schema relation = .ok columns →
    NamesOk (columns.map (·.name))
  indexes : ∀ schema relation indexes, db.listIndexes s schema relation = .ok indexes →
    NamesOk (indexes.map (·.name))
  constraints : ∀ schema relation constraints,
    db.listConstraints s schema relation = .ok constraints → NamesOk (constraints.map (·.name))
  relationInfo : ∀ schema relations, db.listRelations s schema = .ok relations →
    ∀ relation ∈ relations, db.relationInfo s schema relation.name = .ok relation

/-- The same entry, by what a walk over the filesystem looks at. -/
def SameEntry (entry info : FileInfo) : Prop :=
  info.name = entry.name ∧ info.fileType = entry.fileType ∧ info.size = entry.size

/-- The entries are distinct, and `info_db` answers for each of them with the same entry. -/
def InfoAgrees (db : Database σ Stream) (s : σ) (entries : List FileInfo) : Prop :=
  (entries.map (·.name)).Nodup ∧
    ∀ entry ∈ entries, ∃ info, infoDb db s entry.name = .ok info ∧ SameEntry entry info

/-- No relation of a listed schema has a name that ends like a data file, and a listed
relation that is a view has an empty definition. -/
def Listable (db : Database σ Stream) (s : σ) (path : DbPath) : Prop :=
  match path.kind with
  | .Schema => ∀ schema relations, path.schema = some schema →
      db.listRelations s schema = .ok relations →
      ∀ relation ∈ relations, NoFormatSuffix relation.name
  | .Relation => ∀ schema relation info, path.schema = some schema →
      path.relation = some relation → db.relationInfo s schema relation = .ok info →
      info.kind = .View → db.viewDefinition s schema relation = .ok []
  | _ => True

/-! ### Paths of entries -/

section
variable (schema relation : Str) (hschema : Segment schema) (hrelation : Segment relation)
include hschema

theorem parse_relationPath (hname : PathName relation) (hsuffix : NoFormatSuffix relation) :
    DbPath.parse (DbPath.relationPath schema relation) =
      .ok ⟨some schema, some relation, .Relation, []⟩ := by
  have hcall : (BuilderCall.relationPath schema relation).Parsable := by
    refine ⟨?_, ?_, ?_⟩
    · simp only [BuilderCall.components, List.forall_mem_cons]
      exact ⟨hschema, hname.segment, by simp⟩
    · simpa [BuilderCall.components] using hname.2.2.2
    · rintro _ _ ⟨⟩
      exact hsuffix
  exact hcall.parse_path

/- The path of a relation whose name ends like a data file is that of the file. -/
theorem parse_dataFilePath (name : Str) (format : DataFormat)
    (hname : PathName (name ++ '.' :: format.extension)) :
    DbPath.parse (DbPath.relationPath schema (name ++ '.' :: format.extension)) =
      .ok ⟨some schema, some name, .RelationData format, []⟩ := by
  have hcall : (BuilderCall.relationDataPath schema name format).Parsable := by
    refine ⟨?_, ?_, ?_⟩
    · simp only [BuilderCall.components, List.forall_mem_cons]
      exact ⟨hschema, hname.segment, by simp⟩
    · simpa [BuilderCall.components] using hname.2.2.2
    · rintro _ _ ⟨⟩
  have hpath := hcall.parse_path
  rwa [BuilderCall.path, DbPath.relationDataPath, List.append_assoc] at hpath

include hrelation

theorem parse_facetPath (facet : DbFacet) :
    DbPath.parse (DbPath.facetPath schema relation facet) =
      .ok ⟨some schema, some relation, .Facet facet none, []⟩ := by
  have hfacet := pathName_asStr facet
  have hcall : (BuilderCall.facetPath schema relation facet).Parsable := by
    refine ⟨?_, ?_, ?_⟩
    · simp only [BuilderCall.components, List.forall_mem_cons]
      exact ⟨hschema, hrelation, hfacet.segment, by simp⟩
    · simpa [BuilderCall.components] using hfacet.2.2.2
    · rintro _ _ ⟨⟩
  exact hcall.parse_path

theorem parse_facetItemPath (facet : DbFacet) (item : Str) (hitem : PathName item) :
    DbPath.parse (DbPath.facetItemPath schema relation facet item) =
      .ok ⟨some schema, some relation, .Facet facet (some item), []⟩ := by
  have hcall : (BuilderCall.facetItemPath schema relation facet item).Parsable := by
    refine ⟨?_, ?_, ?_⟩
    · simp only [BuilderCall.components, List.forall_mem_cons]
      exact ⟨hschema, hrelation, (pathName_asStr facet).segment, hitem.segment, by simp⟩
    · simpa [BuilderCall.components] using hitem.2.2.2
    · rintro _ _ ⟨⟩
  exact hcall.parse_path

theorem parse_viewDefinitionPath :
    DbPath.parse (DbPath.viewDefinitionPath schema relation) =
      .ok ⟨some schema, some relation, .ViewDefinition, []⟩ := by
  have hfile : PathName "definition.sql".toList := by decide
  have hcall : (BuilderCall.viewDefinitionPath schema relation).Parsable := by
    refine ⟨?_, ?_, ?_⟩
    · simp only [BuilderCall.components, List.forall_mem_cons]
      exact ⟨hschema, hrelation, hfile.segment, by simp⟩
    · simpa [BuilderCall.components] using hfile.2.2.2
    · rintro _ _ ⟨⟩
  exact hcall.parse_path

end

/-! ### Names of entries -/

theorem nodup_entries {α : Type} (items : List α) (name : α → Str) (entry : α → FileInfo)
    (path : Str → Str) (hpath : Function.Injective path)
    (hentry : ∀ x, (entry x).name = path (name x)) (hnames : (items.map name).Nodup) :
    ((items.map entry).map (·.name)).Nodup := by
  have hmap : (items.map entry).map (·.name) = (items.map name).map path := by
    simp only [List.map_map]
    exact List.map_congr_left fun x _ => hentry x
  rw [hmap]
  exact hnames.map hpath

theorem getLast?_facetItemPath (schema relation item : Str) (facet : DbFacet)
    (hschema : Segment schema) (hrelation : Segment relation) (hitem : PathName item) :
    ((DbPath.facetItemPath schema relation facet item).splitOn '/').getLast? = some item := by
  have hpath : DbPath.facetItemPath schema relation facet item =
      slashed [schema, relation, facet.asStr, item] := by
    simp [DbPath.facetItemPath, slashed]
  have hparts : ∀ part ∈ [schema, relation, facet.asStr, item], Component part := by
    simp only [List.forall_mem_cons]
    exact ⟨hschema.1, hrelation.1, (pathName_asStr facet).segment.1, hitem.segment.1, by simp⟩
  rw [hpath, splitOn_slashed _ hparts]
  rfl

/-! ### Metadata by the parsed path -/

section
variable (db : Database σ Stream) (s : σ) (path schema relation : Str)

theorem infoDb_schema (hparse : DbPath.parse path = .ok ⟨some schema, none, .Schema, []⟩) :
    infoDb db s path = (ensureSchema db s schema >>= fun info => .ok (schemaInfo info)) := by
  rw [infoDb, hparse]
  rfl

theorem infoDb_relation
    (hparse : DbPath.parse path = .ok ⟨some schema, some relation, .Relation, []⟩) :
    infoDb db s path =
      (db.relationInfo s schema relation >>= fun info => .ok (relationInfo schema info)) := by
  rw [infoDb, hparse]
  rfl

theorem infoDb_facet (facet : DbFacet)
    (hparse : DbPath.parse path = .ok ⟨some schema, some relation, .Facet facet none, []⟩) :
    infoDb db s path =
      (db.relationInfo s schema relation >>= fun _ => .ok (facetDir schema relation facet)) := by
  rw [infoDb, hparse]
  rfl

theorem infoDb_item (facet : DbFacet) (item : Str)
    (hparse : DbPath.parse path = .ok ⟨some schema, some relation, .Facet facet (some item), []⟩) :
    infoDb db s path = facetItemInfo db s schema relation facet item := by
  rw [infoDb, hparse]
  rfl

theorem infoDb_data (format : DataFormat)
    (hparse : DbPath.parse path = .ok ⟨some schema, some relation, .RelationData format, []⟩) :
    infoDb db s path = (db.relationInfo s schema relation >>= fun info =>
      .ok (relationDataFile db.dialect schema relation info.kind format)) := by
  rw [infoDb, hparse]
  rfl

theorem infoDb_definition
    (hparse : DbPath.parse path = .ok ⟨some schema, some relation, .ViewDefinition, []⟩) :
    infoDb db s path = (db.viewDefinition s schema relation >>= fun definition =>
      .ok (viewDefinitionFile schema relation (Utf8.encode definition).length)) := by
  rw [infoDb, hparse]
  rfl

end

/-! ### The levels -/

section
variable (db : Database σ Stream) (s : σ) (hnames : WellNamed db s)
include hnames

theorem root_agrees (schemas : List SchemaInfo) (hlist : db.listSchemas s = .ok schemas) :
    InfoAgrees db s (schemas.map schemaInfo) := by
  obtain ⟨hnodup, hname⟩ := hnames.schemas schemas hlist
  have hpath (schema : SchemaInfo) : (schemaInfo schema).name = DbPath.schemaPath schema.name := by
    simp [schemaInfo, FileInfo.directory]
  refine ⟨nodup_entries schemas (·.name) schemaInfo DbPath.schemaPath ?_ hpath hnodup, ?_⟩
  · exact fun a b h => (List.cons.inj h).2
  · intro entry hentry
    obtain ⟨schema, hschema, rfl⟩ := List.mem_map.mp hentry
    have hvalid : (BuilderCall.schemaPath schema.name).Valid :=
      hname schema.name (List.mem_map_of_mem hschema)
    have hparse := hvalid.parsable.parse_path
    rw [BuilderCall.path] at hparse
    have hensure : ensureSchema db s schema.name = .ok schema := by
      refine Checked.bind_eq_ok_iff.mpr ⟨schemas, hlist, ?_⟩
      rw [Keyed.find_key schemas (·.name) hnodup schema hschema _ fun _ _ => rfl]
    refine ⟨schemaInfo schema, ?_, rfl, rfl, rfl⟩
    rw [hpath, infoDb_schema db s _ schema.name hparse, hensure]
    rfl

theorem schema_agrees_iff (schema : Str) (relations : List RelationInfo)
    (hschema : Segment schema) (hlist : db.listRelations s schema = .ok relations) :
    InfoAgrees db s (relations.map (relationInfo schema)) ↔
      ∀ relation ∈ relations, NoFormatSuffix relation.name := by
  obtain ⟨hnodup, hname⟩ := hnames.relations schema relations hlist
  have hpath (relation : RelationInfo) :
      (relationInfo schema relation).name = DbPath.relationPath schema relation.name := by
    simp [relationInfo, FileInfo.directory]
  constructor
  · intro hagrees relation hrelation format hsuffix
    obtain ⟨name, hsplit⟩ := hsuffix
    have hpathName := hname relation.name (List.mem_map_of_mem hrelation)
    obtain ⟨info, hinfo, _, htype, _⟩ :=
      hagrees.2 (relationInfo schema relation) (List.mem_map_of_mem hrelation)
    rw [← hsplit] at hpathName
    -- the listed directory is looked up as the data file of another relation
    rw [hpath, ← hsplit, infoDb_data db s _ schema name format
      (parse_dataFilePath schema hschema name format hpathName)] at hinfo
    obtain ⟨_, _, heq⟩ := Checked.bind_eq_ok_iff.mp hinfo
    rw [← Except.ok.inj heq] at htype
    simp [relationInfo, relationDataFile, FileInfo.directory, FileInfo.file] at htype
  · intro hsuffix
    refine ⟨nodup_entries relations (·.name) _ (DbPath.relationPath schema) ?_ hpath hnodup, ?_⟩
    · exact fun a b h => by simpa [DbPath.relationPath] using h
    · intro entry hentry
      obtain ⟨relation, hrelation, rfl⟩ := List.mem_map.mp hentry
      refine ⟨relationInfo schema relation, ?_, rfl, rfl, rfl⟩
      rw [hpath, infoDb_relation db s _ schema relation.name
        (parse_relationPath schema relation.name hschema
          (hname relation.name (List.mem_map_of_mem hrelation)) (hsuffix relation hrelation)),
        hnames.relationInfo schema relations hlist relation hrelation]
      rfl

end

section
variable (db : Database σ Stream) (s : σ) (schema relation : Str) (hschema : Segment schema)
  (hrelation : Segment relation)
include hschema hrelation

/- The entries of a relation's directory, and of its part that only a view has. -/
theorem facetDirs_agree (info : RelationInfo) (hinfo : db.relationInfo s schema relation = .ok info)
    (facet : DbFacet) :
    infoDb db s (facetDir schema relation facet).name = .ok (facetDir schema relation facet) := by
  have hpath : (facetDir schema relation facet).name = DbPath.facetPath schema relation facet := by
    simp [facetDir, FileInfo.directory]
  rw [hpath, infoDb_facet db s _ schema relation facet
    (parse_facetPath schema relation hschema hrelation facet), hinfo]
  rfl

theorem definition_agrees_iff :
    (∃ info, infoDb db s (viewDefinitionFile schema relation 0).name = .ok info ∧
        SameEntry (viewDefinitionFile schema relation 0) info) ↔
      db.viewDefinition s schema relation = .ok [] := by
  have hpath : (viewDefinitionFile schema relation 0).name =
      DbPath.viewDefinitionPath schema relation := rfl
  rw [hpath, infoDb_definition db s _ schema relation
    (parse_viewDefinitionPath schema relation hschema hrelation)]
  constructor
  · intro hgiven
    obtain ⟨info, hinfo, _, _, hsize⟩ := hgiven
    obtain ⟨definition, hdefinition, heq⟩ := Checked.bind_eq_ok_iff.mp hinfo
    rw [← Except.ok.inj heq] at hsize
    have hempty : (Utf8.encode definition).length = 0 := hsize
    cases definition with
    | nil => exact hdefinition
    | cons c definition =>
      have hpos := Char.utf8Size_pos c
      rw [Utf8.encode, List.flatMap_cons, List.length_append,
        String.length_utf8EncodeChar] at hempty
      omega
  · intro h
    rw [h]
    exact ⟨_, rfl, rfl, rfl, rfl⟩

theorem relation_agrees_iff (info : RelationInfo)
    (hinfo : db.relationInfo s schema relation = .ok info) (entries : List FileInfo)
    (hentries : entries = [facetDir schema relation .Columns, facetDir schema relation .Indexes,
      facetDir schema relation .Constraints] ++
        if info.kind = .View then
          [facetDir schema relation .DependsOn, viewDefinitionFile schema relation 0]
        else []) :
    InfoAgrees db s entries ↔
      (info.kind = .View → db.viewDefinition s schema relation = .ok []) := by
  have hinjective : Function.Injective fun part : Str =>
      DbPath.relationPath schema relation ++ '/' :: part := by
    intro a b h
    simpa using h
  have hnodup : (entries.map (·.name)).Nodup := by
    by_cases hview : info.kind = .View
    · rw [hentries, if_pos hview]
      have hparts : ["columns".toList, "indexes".toList, "constraints".toList, "depends_on".toList,
          "definition.sql".toList].Nodup := by decide
      have hpaths := hparts.map hinjective
      exact hpaths
    · rw [hentries, if_neg hview]
      have hparts : ["columns".toList, "indexes".toList, "constraints".toList].Nodup := by decide
      have hpaths := hparts.map hinjective
      exact hpaths
  have hfacets := facetDirs_agree db s schema relation hschema hrelation info hinfo
  rw [InfoAgrees, hentries]
  constructor
  · intro hgiven hview
    obtain ⟨_, hagrees⟩ := hgiven
    rw [if_pos hview] at hagrees
    exact (definition_agrees_iff db s schema relation hschema hrelation).mp
      (hagrees _ (by simp))
  · intro hdefinition
    refine ⟨hentries ▸ hnodup, fun entry hentry => ?_⟩
    have hdir (facet : DbFacet) (heq : entry = facetDir schema relation facet) :
        ∃ info, infoDb db s entry.name = .ok info ∧ SameEntry entry info := by
      rw [heq]
      exact ⟨_, hfacets facet, rfl, rfl, rfl⟩
    rcases List.mem_append.mp hentry with hentry | hentry
    · simp only [List.mem_cons, List.not_mem_nil, or_false] at hentry
      rcases hentry with heq | heq | heq
      · exact hdir _ heq
      · exact hdir _ heq
      · exact hdir _ heq
    · by_cases hview : info.kind = .View
      · simp only [if_pos hview, List.mem_cons, List.not_mem_nil, or_false] at hentry
        rcases hentry with heq | rfl
        · exact hdir _ heq
        · exact (definition_agrees_iff db s schema relation hschema hrelation).mpr
            (hdefinition hview)
      · simp [if_neg hview] at hentry

/-- An item of a facet is found by its name. -/
theorem facet_agrees {α : Type} (facet : DbFacet) (items : List α) (name : α → Str)
    (entry : α → FileInfo)
    (hentries : facetEntries db s schema relation facet = .ok (items.map entry))
    (hpath : ∀ x, (entry x).name = DbPath.facetItemPath schema relation facet (name x))
    (hnames : NamesOk (items.map name)) : InfoAgrees db s (items.map entry) := by
  obtain ⟨hnodup, hname⟩ := hnames
  refine ⟨nodup_entries items name entry (DbPath.facetItemPath schema relation facet) ?_ hpath
    hnodup, ?_⟩
  · exact fun a b h => by simpa [DbPath.facetItemPath] using h
  · intro e he
    obtain ⟨x, hx, rfl⟩ := List.mem_map.mp he
    have hitem := hname (name x) (List.mem_map_of_mem hx)
    have hfind : (items.map entry).find?
        (fun e => (e.name.splitOn '/').getLast? = some (name x)) = some (entry x) := by
      rw [List.find?_map]
      rw [Keyed.find_key items name hnodup x hx _ fun y hy => ?_]
      · rfl
      · simp only [Function.comp_apply, hpath, Option.some.injEq,
          getLast?_facetItemPath schema relation (name y) facet hschema hrelation
            (hname (name y) (List.mem_map_of_mem hy))]
    refine ⟨entry x, ?_, rfl, rfl, rfl⟩
    rw [hpath, infoDb_item db s _ schema relation facet (name x)
      (parse_facetItemPath schema relation hschema hrelation facet (name x) hitem)]
    refine Checked.bind_eq_ok_iff.mpr ⟨_, hentries, ?_⟩
    rw [hfind]

end

/-- The listing of a facet's items. -/
theorem facetListing_agrees (db : Database σ Stream) (s : σ) (hnames : WellNamed db s)
    (schema relation : Str) (hschema : Segment schema) (hrelation : Segment relation)
    (facet : DbFacet) (entries : List FileInfo) (hdepends : facet ≠ .DependsOn)
    (hfacet : facetEntries db s schema relation facet = .ok entries) :
    InfoAgrees db s entries := by
  obtain ⟨info, hinfo, hls⟩ := Checked.bind_eq_ok_iff.mp hfacet
  cases facet with
  | Columns =>
    obtain ⟨columns, hlist, heq⟩ := Checked.bind_eq_ok_iff.mp hls
    rw [← Except.ok.inj heq] at hfacet ⊢
    exact facet_agrees db s schema relation hschema hrelation .Columns columns (·.name) _ hfacet
      (by simp [columnInfo, FileInfo.file]) (hnames.columns schema relation columns hlist)
  | Indexes =>
    obtain ⟨indexes, hlist, heq⟩ := Checked.bind_eq_ok_iff.mp hls
    rw [← Except.ok.inj heq] at hfacet ⊢
    exact facet_agrees db s schema relation hschema hrelation .Indexes indexes (·.name) _ hfacet
      (by simp [indexInfo, FileInfo.file]) (hnames.indexes schema relation indexes hlist)
  | Constraints =>
    obtain ⟨constraints, hlist, heq⟩ := Checked.bind_eq_ok_iff.mp hls
    rw [← Except.ok.inj heq] at hfacet ⊢
    exact facet_agrees db s schema relation hschema hrelation .Constraints constraints (·.name) _
      hfacet (by simp [constraintInfo, FileInfo.file])
      (hnames.constraints schema relation constraints hlist)
  | DependsOn => exact absurd rfl hdepends

/-- Every listing but that of a view's dependencies agrees with the metadata of its entries,
if and only if it is `Listable`. -/
theorem ls_agrees_iff (db : Database σ Stream) (s : σ) (path : Str) (parsed : DbPath)
    (entries : List FileInfo) (hnames : WellNamed db s) (hparse : DbPath.parse path = .ok parsed)
    (hdepends : parsed.kind ≠ .Facet .DependsOn none) (hls : lsDb db s path = .ok entries) :
    InfoAgrees db s entries ↔ Listable db s parsed := by
  have hsegments := parse_names path parsed hparse
  obtain ⟨_, hparsed, hls⟩ := Checked.bind_eq_ok_iff.mp hls
  obtain rfl := Except.ok.inj (hparse.symm.trans hparsed)
  obtain ⟨schemaName, relationName, kind, query⟩ := parsed
  cases kind with
  | Root =>
    obtain ⟨schemas, hlist, heq⟩ := Checked.bind_eq_ok_iff.mp hls
    rw [← Except.ok.inj heq]
    exact iff_of_true (root_agrees db s hnames schemas hlist) trivial
  | Schema =>
    obtain ⟨schema, rfl, hschema⟩ := hsegments
    obtain ⟨_, ⟨⟩, hls⟩ := Checked.bind_eq_ok_iff.mp hls
    obtain ⟨_, _, hls⟩ := Checked.bind_eq_ok_iff.mp hls
    obtain ⟨relations, hlist, heq⟩ := Checked.bind_eq_ok_iff.mp hls
    rw [← Except.ok.inj heq, schema_agrees_iff db s hnames schema relations hschema hlist]
    constructor
    · rintro hsuffix _ relations' ⟨⟩ hlist'
      rw [hlist] at hlist'
      rw [← Except.ok.inj hlist']
      exact hsuffix
    · exact fun hlistable => hlistable schema relations rfl hlist
  | Relation =>
    obtain ⟨schema, relation, rfl, rfl, hschema, hrelation⟩ := hsegments
    obtain ⟨_, ⟨⟩, hls⟩ := Checked.bind_eq_ok_iff.mp hls
    obtain ⟨info, hinfo, hls⟩ := Checked.bind_eq_ok_iff.mp hls
    have hentries : entries = [facetDir schema relation .Columns,
        facetDir schema relation .Indexes, facetDir schema relation .Constraints] ++
          if info.kind = .View then
            [facetDir schema relation .DependsOn, viewDefinitionFile schema relation 0]
          else [] := by
      split at hls
      · next hview => rw [if_pos hview]; exact (Except.ok.inj hls).symm
      · next hview => rw [if_neg hview]; exact (Except.ok.inj hls).symm
    rw [relation_agrees_iff db s schema relation hschema hrelation info hinfo entries hentries]
    constructor
    · rintro hdefinition _ _ info' ⟨⟩ ⟨⟩ hinfo'
      rw [hinfo] at hinfo'
      rw [← Except.ok.inj hinfo']
      exact hdefinition
    · exact fun hlistable => hlistable schema relation info rfl rfl hinfo
  | Facet facet item =>
    obtain ⟨schema, relation, rfl, rfl, hschema, hrelation⟩ := hsegments
    cases item with
    | some item => simp at hls
    | none =>
      obtain ⟨_, ⟨⟩, hfacet⟩ := Checked.bind_eq_ok_iff.mp hls
      have hitems : facet ≠ .DependsOn := by
        intro hsame
        subst hsame
        exact hdepends rfl
      exact iff_of_true (facetListing_agrees db s hnames schema relation hschema hrelation facet
        entries hitems hfacet) trivial
  | RelationData format => cases hls
  | ViewDefinition => cases hls

/-- A table `users` and a view `recent` of it, in one schema. -/
def usersAndView : Database Unit Unit where
  dialect := .Sqlite
  listSchemas _ := .ok [⟨"main".toList, none, none⟩]
  listRelations _ _ := .ok [⟨"users".toList, .Table, some 2, none, none⟩,
    ⟨"recent".toList, .View, none, none, none⟩]
  listColumns _ _ _ := .ok [⟨"id".toList, "BIGINT".toList, false, none, 1, true, none⟩]
  listIndexes _ _ _ := .ok []
  listConstraints _ _ _ := .ok []
  relationInfo _ _ relation :=
    if relation = "users".toList then .ok ⟨"users".toList, .Table, some 2, none, none⟩
    else if relation = "recent".toList then .ok ⟨"recent".toList, .View, none, none, none⟩
    else .error (.NotFound relation)
  viewDefinition _ _ _ := .ok "SELECT id FROM users".toList
  insert _ _ _ _ _ := (.ok 0, ())
  viewDependencies _ := ["users".toList]

theorem usersAndView_wellNamed : WellNamed usersAndView () where
  schemas schemas h := by
    rw [← Except.ok.inj h]
    decide
  relations schema relations h := by
    rw [← Except.ok.inj h]
    decide
  columns schema relation columns h := by
    rw [← Except.ok.inj h]
    decide
  indexes schema relation indexes h := by
    rw [← Except.ok.inj h]
    decide
  constraints schema relation constraints h := by
    rw [← Except.ok.inj h]
    decide
  relationInfo schema relations h relation hrelation := by
    rw [← Except.ok.inj h, List.mem_cons, List.mem_singleton] at hrelation
    rcases hrelation with rfl | rfl
    · rfl
    · rfl

/-- The listing of the schema agrees. -/
theorem schema_listing_agrees :
    InfoAgrees usersAndView ()
      [relationInfo "main".toList ⟨"users".toList, .Table, some 2, none, none⟩,
      relationInfo "main".toList ⟨"recent".toList, .View, none, none, none⟩] := by
  have h := ls_agrees_iff usersAndView () "/main".toList ⟨some "main".toList, none, .Schema, []⟩ _
    usersAndView_wellNamed (by decide) (by decide) rfl
  refine h.mpr fun schema relations _ hlist relation hrelation => ?_
  rw [← Except.ok.inj hlist, List.mem_cons, List.mem_singleton] at hrelation
  rcases hrelation with rfl | rfl <;> intro format <;> cases format <;> decide

/-- The listing of the view has its definition with size 0, and `info_db` has it with 20. -/
theorem definition_has_two_sizes :
    ¬ ∀ (db : Database Unit Unit) (s : Unit) (path : Str) (parsed : DbPath)
        (entries : List FileInfo), WellNamed db s → DbPath.parse path = .ok parsed →
      parsed.kind ≠ .Facet .DependsOn none → lsDb db s path = .ok entries →
      InfoAgrees db s entries := by
  intro h
  have hagrees := h usersAndView () "/main/recent".toList
    ⟨some "main".toList, some "recent".toList, .Relation, []⟩ _ usersAndView_wellNamed (by decide)
    (by decide) rfl
  obtain ⟨info, hinfo, _, _, hsize⟩ := hagrees.2
    (viewDefinitionFile "main".toList "recent".toList 0) (by decide)
  have hfull : infoDb usersAndView () (viewDefinitionFile "main".toList "recent".toList 0).name =
      .ok (viewDefinitionFile "main".toList "recent".toList 20) := by decide
  rw [hfull] at hinfo
  rw [← Except.ok.inj hinfo] at hsize
  exact absurd hsize (by decide)

end FsspecDb.Fs
