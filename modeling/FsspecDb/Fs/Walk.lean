import FsspecDb.Fs.Entries

/-!
# Walking the namespace (fs.rs, path.rs)

From the root downwards, every directory that a listing shows is listed in turn. What comes by
is the inventory of the database: each schema, relation, facet and item once.
-/

namespace FsspecDb.Fs
open Text

variable {σ Stream : Type}

/-- What a failed listing shows is nothing. -/
def answered {ε α : Type} (result : Except ε (List α)) : List α := result.toOption.getD []

/-- The names below a path, as far down as `fuel` levels. -/
def walk (db : Database σ Stream) (s : σ) : Nat → Str → List Str
  | 0, _ => []
  | fuel + 1, path => (answered (lsDb db s path)).flatMap fun entry =>
    entry.name :: if entry.fileType = .Directory then walk db s fuel entry.name else []

/-! ### The inventory -/

section
variable (db : Database σ Stream) (s : σ)

/- The table that a reference of a view names, without its schema. -/
def dependencyName (schema dependency : Str) : Str :=
  ((rsplitOnce dependency '.').getD (schema, dependency)).2

/- The references of a view that `facet_entries` keeps. -/
def references (schema relation : Str) : Except DbError (List Str) := do
  let definition ← db.viewDefinition s schema relation
  return (db.viewDependencies definition).filter fun dependency =>
    ((rsplitOnce dependency '.').map Prod.snd).getD dependency ≠ relation

def itemNames (schema relation : Str) : DbFacet → List Str
  | .Columns => (answered (db.listColumns s schema relation)).map (·.name)
  | .Indexes => (answered (db.listIndexes s schema relation)).map (·.name)
  | .Constraints => (answered (db.listConstraints s schema relation)).map (·.name)
  | .DependsOn => (answered (references db s schema relation)).map (dependencyName schema)

def facetsOf (kind : RelationKind) : List DbFacet :=
  [.Columns, .Indexes, .Constraints] ++ if kind = .View then [.DependsOn] else []

def facetCalls (schema relation : Str) (facet : DbFacet) : List BuilderCall :=
  .facetPath schema relation facet ::
    (itemNames db s schema relation facet).map (.facetItemPath schema relation facet)

def relationCalls (schema : Str) (relation : RelationInfo) : List BuilderCall :=
  .relationPath schema relation.name ::
    ((facetsOf relation.kind).flatMap (facetCalls db s schema relation.name) ++
      if relation.kind = .View then [.viewDefinitionPath schema relation.name] else [])

def schemaCalls (schema : SchemaInfo) : List BuilderCall :=
  .schemaPath schema.name ::
    (answered (db.listRelations s schema.name)).flatMap (relationCalls db s schema.name)

/-- Everything the database has, in the order of its listings. -/
def inventory : List BuilderCall := (answered (db.listSchemas s)).flatMap (schemaCalls db s)

end

/-! ### A listing and the walk below it -/

section
variable (db : Database σ Stream) (s : σ)

theorem walk_of_listing (fuel : Nat) (path : Str) (entries : List FileInfo)
    (h : answered (lsDb db s path) = entries) :
    walk db s (fuel + 1) path = entries.flatMap fun entry =>
      entry.name :: if entry.fileType = .Directory then walk db s fuel entry.name else [] := by
  rw [walk, h]

theorem answered_bind_ok {α β : Type} (result : Except DbError (List α)) (f : α → β) :
    answered (result >>= fun items => .ok (items.map f)) = (answered result).map f := by
  cases result <;> rfl

/- A listing of files ends the walk. -/
theorem walk_of_files {α : Type} (fuel : Nat) (path : Str) (items : Except DbError (List α))
    (entry : α → FileInfo) (name : α → Str) (h : lsDb db s path = items >>= fun items =>
      .ok (items.map entry))
    (hentry : ∀ x, (entry x).name = name x ∧ (entry x).fileType = .File) :
    walk db s (fuel + 1) path = (answered items).map name := by
  rw [walk, h, answered_bind_ok, List.flatMap_map, List.map_eq_flatMap]
  apply List.flatMap_congr
  intro x _
  rw [(hentry x).1, (hentry x).2, if_neg (by decide)]

/-! ### The levels -/

section
variable (schema relation : Str) (hschema : Segment schema) (hrelation : Segment relation)
  (info : RelationInfo) (hinfo : db.relationInfo s schema relation = .ok info) (fuel : Nat)
include hschema hrelation hinfo

theorem facet_walk (facet : DbFacet) (hfacet : facet ∈ facetsOf info.kind) :
    walk db s (fuel + 1) (DbPath.facetPath schema relation facet) =
      (itemNames db s schema relation facet).map (DbPath.facetItemPath schema relation facet) := by
  have hls : lsDb db s (DbPath.facetPath schema relation facet) =
      facetEntries db s schema relation facet := by
    rw [lsDb, parse_facetPath schema relation hschema hrelation facet]
    rfl
  unfold facetEntries at hls
  rw [hinfo] at hls
  cases facet with
  | Columns =>
    rw [walk_of_files db s fuel _ _ _ _ hls fun column => ⟨by simp [columnInfo, FileInfo.file]; rfl,
      by simp [columnInfo, FileInfo.file]⟩, itemNames, List.map_map]
    rfl
  | Indexes =>
    rw [walk_of_files db s fuel _ _ _ _ hls fun index => ⟨by simp [indexInfo, FileInfo.file]; rfl,
      by simp [indexInfo, FileInfo.file]⟩, itemNames, List.map_map]
    rfl
  | Constraints =>
    rw [walk_of_files db s fuel _ _ _ _ hls fun constraint =>
      ⟨by simp [constraintInfo, FileInfo.file]; rfl, by simp [constraintInfo, FileInfo.file]⟩,
      itemNames, List.map_map]
    rfl
  | DependsOn =>
    have hview : info.kind = .View := by
      by_contra hkind
      simp [facetsOf, hkind] at hfacet
    have hreferences : lsDb db s (DbPath.facetPath schema relation .DependsOn) =
        references db s schema relation >>= fun items =>
          .ok (items.map (dependsOnEntry schema relation)) := by
      rw [hls, references]
      simp only [bind, Except.bind, hview, ne_eq, not_true_eq_false, if_false]
      cases db.viewDefinition s schema relation <;> rfl
    rw [walk_of_files db s fuel _ _ _ _ hreferences fun dependency => ⟨rfl, rfl⟩, itemNames,
      List.map_map]
    rfl

theorem relation_walk (hname : PathName relation) (hsuffix : NoFormatSuffix relation)
    (hsame : info.name = relation) :
    DbPath.relationPath schema relation :: walk db s (fuel + 2)
        (DbPath.relationPath schema relation) =
      (relationCalls db s schema info).map BuilderCall.path := by
  have hentries : answered (lsDb db s (DbPath.relationPath schema relation)) =
      (facetsOf info.kind).map (facetDir schema relation) ++
        if info.kind = .View then [viewDefinitionFile schema relation 0] else [] := by
    rw [lsDb, parse_relationPath schema relation hschema hname hsuffix]
    simp only [bind, Except.bind, requiredRelation, requiredSchema, hinfo, facetsOf]
    split
    · rfl
    · rfl
  have hdirs : ((facetsOf info.kind).map (facetDir schema relation)).flatMap (fun entry =>
      entry.name :: if entry.fileType = .Directory then walk db s (fuel + 1) entry.name else []) =
      ((facetsOf info.kind).flatMap (facetCalls db s schema relation)).map BuilderCall.path := by
    rw [List.flatMap_map, List.map_flatMap]
    apply List.flatMap_congr
    intro facet hfacet
    have hpath :
        (facetDir schema relation facet).name = DbPath.facetPath schema relation facet := by
      simp [facetDir, FileInfo.directory]
    have htype : (facetDir schema relation facet).fileType = .Directory := by
      simp [facetDir, FileInfo.directory]
    rw [hpath, htype, if_pos rfl, facet_walk db s schema relation hschema hrelation info hinfo fuel
      facet hfacet, facetCalls, List.map_cons, List.map_map]
    rfl
  rw [relationCalls, List.map_cons, List.map_append, walk_of_listing db s (fuel + 1) _ _ hentries,
    List.flatMap_append, hdirs, hsame]
  congr 2
  split
  · rfl
  · rfl

end

/-- The names of the database stand in paths, and `relation_info` knows every relation that
`list_relations` lists, by its name and its kind. -/
structure Walkable : Prop where
  schemas : ∀ schemas, db.listSchemas s = .ok schemas → NamesOk (schemas.map (·.name))
  relations : ∀ schema relations, db.listRelations s schema = .ok relations →
    NamesOk (relations.map (·.name))
  columns : ∀ schema relation columns, db.listColumns s schema relation = .ok columns →
    NamesOk (columns.map (·.name))
  indexes : ∀ schema relation indexes, db.listIndexes s schema relation = .ok indexes →
    NamesOk (indexes.map (·.name))
  constraints : ∀ schema relation constraints,
    db.listConstraints s schema relation = .ok constraints → NamesOk (constraints.map (·.name))
  relationInfo : ∀ schema relations, db.listRelations s schema = .ok relations →
    ∀ relation ∈ relations, ∃ info, db.relationInfo s schema relation.name = .ok info ∧
      info.name = relation.name ∧ info.kind = relation.kind

theorem WellNamed.walkable {db : Database σ Stream} {s : σ} (h : WellNamed db s) :
    Walkable db s where
  schemas := h.schemas
  relations := h.relations
  columns := h.columns
  indexes := h.indexes
  constraints := h.constraints
  relationInfo schema relations hlist relation hrelation :=
    ⟨relation, h.relationInfo schema relations hlist relation hrelation, rfl, rfl⟩

/-- No relation has a name that ends like a data file. -/
def Suffixless : Prop :=
  ∀ schema relations, db.listRelations s schema = .ok relations →
    ∀ relation ∈ relations, NoFormatSuffix relation.name

theorem answered_mem {α : Type} (result : Except DbError (List α)) (x : α)
    (hx : x ∈ answered result) :
    ∃ items, result = .ok items ∧ x ∈ items := by
  cases result with
  | error err => cases hx
  | ok items => exact ⟨items, rfl, hx⟩

section
variable (hnames : Walkable db s)
include hnames

theorem schema_walk (hsuffix : Suffixless db s) (schema : SchemaInfo)
    (hschema : schema ∈ answered (db.listSchemas s)) (fuel : Nat) :
    DbPath.schemaPath schema.name :: walk db s (fuel + 3) (DbPath.schemaPath schema.name) =
      (schemaCalls db s schema).map BuilderCall.path := by
  obtain ⟨schemas, hlist, hmem⟩ := answered_mem _ schema hschema
  obtain ⟨hnodup, hname⟩ := hnames.schemas schemas hlist
  have hsegment := hname schema.name (List.mem_map_of_mem hmem)
  have hvalid : (BuilderCall.schemaPath schema.name).Valid := hsegment
  have hparse : DbPath.parse (DbPath.schemaPath schema.name) =
      .ok ⟨some schema.name, none, .Schema, []⟩ := hvalid.parsable.parse_path
  have hensure : ensureSchema db s schema.name = .ok schema := by
    refine Checked.bind_eq_ok_iff.mpr ⟨schemas, hlist, ?_⟩
    rw [Keyed.find_key schemas (·.name) hnodup schema hmem _ fun _ _ => rfl]
  have hls : lsDb db s (DbPath.schemaPath schema.name) =
      db.listRelations s schema.name >>= fun relations =>
        .ok (relations.map (relationInfo schema.name)) := by
    rw [lsDb, hparse]
    simp only [bind, Except.bind, requiredSchema, hensure]
    rfl
  rw [schemaCalls, List.map_cons, List.map_flatMap]
  congr 1
  rw [walk_of_listing db s (fuel + 2) _ _ rfl, hls, answered_bind_ok, List.flatMap_map]
  apply List.flatMap_congr
  intro relation hrelation
  obtain ⟨relations, hrelations, hmem'⟩ := answered_mem _ relation hrelation
  have hpathName := (hnames.relations schema.name relations hrelations).2 relation.name
    (List.mem_map_of_mem hmem')
  have hpath : (relationInfo schema.name relation).name =
      DbPath.relationPath schema.name relation.name := by
    simp [relationInfo, FileInfo.directory]
  have htype : (relationInfo schema.name relation).fileType = .Directory := by
    simp [relationInfo, FileInfo.directory]
  obtain ⟨info, hinfo, hsame, hkind⟩ :=
    hnames.relationInfo schema.name relations hrelations relation hmem'
  have hcalls : relationCalls db s schema.name info = relationCalls db s schema.name relation := by
    rw [relationCalls, relationCalls, hsame, hkind]
  rw [hpath, htype, if_pos rfl, ← hcalls]
  exact relation_walk db s schema.name relation.name hsegment.segment hpathName.segment info hinfo
    fuel hpathName (hsuffix schema.name relations hrelations relation hmem') hsame

theorem root_walk (hsuffix : Suffixless db s) (fuel : Nat) :
    walk db s (fuel + 4) ['/'] = (inventory db s).map BuilderCall.path := by
  have hls : lsDb db s ['/'] = db.listSchemas s >>= fun schemas =>
      .ok (schemas.map schemaInfo) := by
    have hparse : DbPath.parse ['/'] = .ok ⟨none, none, .Root, []⟩ := by decide
    rw [lsDb, hparse]
    rfl
  rw [inventory, List.map_flatMap, walk_of_listing db s (fuel + 3) _ _ rfl, hls, answered_bind_ok,
    List.flatMap_map]
  apply List.flatMap_congr
  intro schema hschema
  have hpath : (schemaInfo schema).name = DbPath.schemaPath schema.name := by
    simp [schemaInfo, FileInfo.directory]
  have htype : (schemaInfo schema).fileType = .Directory := by
    simp [schemaInfo, FileInfo.directory]
  rw [hpath, htype, if_pos rfl]
  exact schema_walk db s hnames hsuffix schema hschema fuel

end

end

/-! ### Each once -/

/-- The references of a view have names that can be told apart. -/
def Distinguished (db : Database σ Stream) (s : σ) : Prop :=
  ∀ schema relation, NamesOk (itemNames db s schema relation .DependsOn)

def schemaOf : BuilderCall → Str
  | .schemaPath schema | .relationPath schema _ | .facetPath schema _ _
  | .facetItemPath schema _ _ _ | .relationDataPath schema _ _ | .viewDefinitionPath schema _ =>
    schema

def relationOf : BuilderCall → Option Str
  | .schemaPath _ => none
  | .relationPath _ relation | .facetPath _ relation _ | .facetItemPath _ relation _ _
  | .relationDataPath _ relation _ | .viewDefinitionPath _ relation => some relation

def facetOf : BuilderCall → Option DbFacet
  | .facetPath _ _ facet | .facetItemPath _ _ facet _ => some facet
  | _ => none

section
variable (db : Database σ Stream) (s : σ) (hnames : Walkable db s) (hsuffix : Suffixless db s)
  (hdepends : Distinguished db s)

theorem namesOk_answered {α : Type} (result : Except DbError (List α)) (name : α → Str)
    (h : ∀ items, result = .ok items → NamesOk (items.map name)) :
    NamesOk ((answered result).map name) := by
  cases result with
  | error err => exact ⟨List.nodup_nil, fun name hname => by cases hname⟩
  | ok items => exact h items rfl

include hnames hdepends in
theorem itemNames_ok (schema relation : Str) (facet : DbFacet) :
    NamesOk (itemNames db s schema relation facet) := by
  cases facet with
  | Columns => exact namesOk_answered _ _ (hnames.columns schema relation)
  | Indexes => exact namesOk_answered _ _ (hnames.indexes schema relation)
  | Constraints => exact namesOk_answered _ _ (hnames.constraints schema relation)
  | DependsOn => exact hdepends schema relation

theorem mem_facetCalls (schema relation : Str) (facet : DbFacet) (call : BuilderCall)
    (h : call ∈ facetCalls db s schema relation facet) :
    call = .facetPath schema relation facet ∨ ∃ item ∈ itemNames db s schema relation facet,
      call = .facetItemPath schema relation facet item := by
  rcases List.mem_cons.mp h with h | h
  · exact .inl h
  · obtain ⟨item, hitem, rfl⟩ := List.mem_map.mp h
    exact .inr ⟨item, hitem, rfl⟩

theorem mem_relationCalls (schema : Str) (relation : RelationInfo) (call : BuilderCall)
    (h : call ∈ relationCalls db s schema relation) :
    call = .relationPath schema relation.name ∨
      (∃ facet, call ∈ facetCalls db s schema relation.name facet) ∨
      call = .viewDefinitionPath schema relation.name := by
  rcases List.mem_cons.mp h with h | h
  · exact .inl h
  · rcases List.mem_append.mp h with h | h
    · obtain ⟨facet, _, h⟩ := List.mem_flatMap.mp h
      exact .inr (.inl ⟨facet, h⟩)
    · split at h
      · exact .inr (.inr (List.mem_singleton.mp h))
      · cases h

theorem names_of_relationCalls (schema : Str) (relation : RelationInfo) (call : BuilderCall)
    (h : call ∈ relationCalls db s schema relation) :
    schemaOf call = schema ∧ relationOf call = some relation.name := by
  rcases mem_relationCalls db s schema relation call h with rfl | ⟨facet, h⟩ | rfl
  · exact ⟨rfl, rfl⟩
  · rcases mem_facetCalls db s schema relation.name facet call h with rfl | ⟨item, _, rfl⟩
    · exact ⟨rfl, rfl⟩
    · exact ⟨rfl, rfl⟩
  · exact ⟨rfl, rfl⟩

include hnames hdepends in
theorem facetCalls_nodup (schema relation : Str) (facet : DbFacet) :
    (facetCalls db s schema relation facet).Nodup := by
  obtain ⟨hnodup, _⟩ := itemNames_ok db s hnames hdepends schema relation facet
  refine List.nodup_cons.mpr ⟨fun h => ?_, hnodup.map fun item item' h => ?_⟩
  · obtain ⟨item, _, h⟩ := List.mem_map.mp h
    cases h
  · exact (BuilderCall.facetItemPath.inj h).2.2.2

include hnames hdepends in
theorem relationCalls_nodup (schema : Str) (relation : RelationInfo) :
    (relationCalls db s schema relation).Nodup := by
  have hfacets : ((facetsOf relation.kind).flatMap
      (facetCalls db s schema relation.name)).Nodup := by
    apply Keyed.nodup_flatMap _ _ some facetOf
    · have hdistinct : (facetsOf relation.kind).Nodup := by
        cases relation.kind <;> decide
      exact hdistinct.map (Option.some_injective _)
    · exact fun facet _ => facetCalls_nodup db s hnames hdepends schema relation.name facet
    · intro facet _ call hcall
      rcases mem_facetCalls db s schema relation.name facet call hcall with rfl | ⟨item, _, rfl⟩
      · rfl
      · rfl
  have hother (call : BuilderCall) (h : call ∈ (facetsOf relation.kind).flatMap
      (facetCalls db s schema relation.name)) : facetOf call ≠ none := by
    obtain ⟨facet, _, h⟩ := List.mem_flatMap.mp h
    rcases mem_facetCalls db s schema relation.name facet call h with rfl | ⟨item, _, rfl⟩
    · exact Option.some_ne_none facet
    · exact Option.some_ne_none facet
  refine List.nodup_cons.mpr ⟨fun h => ?_, List.nodup_append.mpr ⟨hfacets, ?_, ?_⟩⟩
  · rcases List.mem_append.mp h with h | h
    · exact hother _ h rfl
    · split at h
      · cases List.mem_singleton.mp h
      · cases h
  · split
    · exact List.nodup_singleton _
    · exact List.nodup_nil
  · intro call hcall last hlast heq
    split at hlast
    · rw [List.mem_singleton.mp hlast] at heq
      exact hother call hcall (heq ▸ rfl)
    · cases hlast

include hnames hdepends in
theorem schemaCalls_nodup (schema : SchemaInfo) : (schemaCalls db s schema).Nodup := by
  obtain ⟨hnodup, _⟩ := namesOk_answered (db.listRelations s schema.name) (·.name)
    (hnames.relations schema.name)
  refine List.nodup_cons.mpr ⟨fun h => ?_, ?_⟩
  · obtain ⟨relation, _, h⟩ := List.mem_flatMap.mp h
    exact absurd (names_of_relationCalls db s schema.name relation _ h).2.symm
      (Option.some_ne_none _)
  · apply Keyed.nodup_flatMap _ _ (fun relation => some relation.name) relationOf
    · have hsome := hnodup.map (Option.some_injective Str)
      rwa [List.map_map] at hsome
    · exact fun relation _ => relationCalls_nodup db s hnames hdepends schema.name relation
    · exact fun relation _ call hcall =>
        (names_of_relationCalls db s schema.name relation call hcall).2

include hnames hdepends in
theorem inventory_nodup : (inventory db s).Nodup := by
  obtain ⟨hnodup, _⟩ := namesOk_answered (db.listSchemas s) (·.name) hnames.schemas
  apply Keyed.nodup_flatMap _ _ (·.name) schemaOf hnodup
  · exact fun schema _ => schemaCalls_nodup db s hnames hdepends schema
  · intro schema _ call hcall
    rcases List.mem_cons.mp hcall with rfl | hcall
    · rfl
    · obtain ⟨relation, _, hcall⟩ := List.mem_flatMap.mp hcall
      exact (names_of_relationCalls db s schema.name relation call hcall).1

include hnames hsuffix hdepends in
theorem inventory_valid (call : BuilderCall) (h : call ∈ inventory db s) : call.Valid := by
  obtain ⟨schema, hschema, h⟩ := List.mem_flatMap.mp h
  obtain ⟨schemas, hlist, hmem⟩ := answered_mem _ schema hschema
  have hname := (hnames.schemas schemas hlist).2 schema.name (List.mem_map_of_mem hmem)
  rcases List.mem_cons.mp h with rfl | h
  · exact hname
  · obtain ⟨relation, hrelation, h⟩ := List.mem_flatMap.mp h
    obtain ⟨relations, hrelations, hmem'⟩ := answered_mem _ relation hrelation
    have hname' := (hnames.relations schema.name relations hrelations).2 relation.name
      (List.mem_map_of_mem hmem')
    rcases mem_relationCalls db s schema.name relation call h with rfl | ⟨facet, h⟩ | rfl
    · exact ⟨hname, hname', hsuffix schema.name relations hrelations relation hmem'⟩
    · rcases mem_facetCalls db s schema.name relation.name facet call h with
        rfl | ⟨item, hitem, rfl⟩
      · exact ⟨hname, hname'⟩
      · exact ⟨hname, hname',
          (itemNames_ok db s hnames hdepends schema.name relation.name facet).2 item hitem⟩
    · exact ⟨hname, hname'⟩

include hnames hsuffix hdepends in
theorem inventory_paths_nodup : ((inventory db s).map BuilderCall.path).Nodup := by
  refine List.Nodup.map_on ?_ (inventory_nodup db s hnames hdepends)
  intro call hcall other hother hpath
  have hparse := (inventory_valid db s hnames hsuffix hdepends call hcall).parsable.parse_path
  rw [hpath, (inventory_valid db s hnames hsuffix hdepends other hother).parsable.parse_path]
    at hparse
  exact BuilderCall.dbPath_injective call other (Except.ok.inj hparse).symm

end

/-- A walk from the root comes by everything in the database, each once and under the path that
its builder makes, and by nothing else; four levels are enough. -/
theorem walk_is_inventory (db : Database σ Stream) (s : σ) (hnames : Walkable db s)
    (hsuffix : Suffixless db s) (hdepends : Distinguished db s) (fuel : Nat) :
    walk db s (fuel + 4) ['/'] = (inventory db s).map BuilderCall.path ∧
      (walk db s (fuel + 4) ['/']).Nodup := by
  have hwalk := root_walk db s hnames hsuffix fuel
  refine ⟨hwalk, ?_⟩
  rw [hwalk]
  exact inventory_paths_nodup db s hnames hsuffix hdepends

/- The table and the view of it, their columns and what the view is made of. -/
theorem walk_is_inventory_usersAndView :
    walk usersAndView () 4 ['/'] = (inventory usersAndView ()).map BuilderCall.path ∧
      (walk usersAndView () 4 ['/']).Nodup := by
  refine walk_is_inventory usersAndView () usersAndView_wellNamed.walkable ?_ ?_ 0
  · intro schema relations hlist relation hrelation
    rw [← Except.ok.inj hlist, List.mem_cons, List.mem_singleton] at hrelation
    rcases hrelation with rfl | rfl <;> intro format <;> cases format <;> decide
  · intro schema relation
    have hsplit : rsplitOnce "users".toList '.' = none := by decide
    have hreferences : references usersAndView () schema relation =
        .ok (["users".toList].filter fun dependency =>
          ((rsplitOnce dependency '.').map Prod.snd).getD dependency ≠ relation) := rfl
    have hnames : itemNames usersAndView () schema relation .DependsOn =
        if "users".toList = relation then [] else ["users".toList] := by
      rw [itemNames, hreferences, List.filter_singleton, hsplit]
      by_cases hself : "users".toList = relation
      · rw [if_pos hself, ← hself]
        rfl
      · simp only [Option.map_none, Option.getD_none, hself, ne_eq, not_false_eq_true,
          decide_true, cond_true]
        rfl
    rw [hnames]
    split
    · decide
    · decide

end FsspecDb.Fs
