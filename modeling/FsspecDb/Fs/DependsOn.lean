import FsspecDb.Fs.Entries
import FsspecDb.Sql.Dependencies

/-!
# The dependencies of a view (fs.rs, `DbFacet::DependsOn`)

The names found in a view's definition were joined by dots. A listing takes them apart again
at the last dot, leaves out the view's own name and names its entries by the last part.
-/

namespace FsspecDb.Fs
open Text Sql

variable {σ Stream : Type}

/-- The relation that a name in a definition of the schema means. -/
def named (schema : Str) (name : ObjectName) : Option (Str × Str) :=
  match name.reverse with
  | [] => none
  | [table] => some (schema, table.value)
  | table :: owner :: _ => some (owner.value, table.value)

/-- The relations that a view's definition names, without the view itself. -/
def referenced (schema view : Str) (names : List ObjectName) : List (Str × Str) :=
  (names.filterMap (named schema)).dedup.filter fun relation => relation ≠ (schema, view)

def pathOfRelation (relation : Str × Str) : Str := DbPath.relationPath relation.1 relation.2

/-- A view, and the names of relations in its definition. -/
structure ViewOf (visitRelations : Dialect → Str → Option (List ObjectName))
    (db : Database σ Stream) (s : σ) (schema view : Str) (names : List ObjectName) : Prop where
  info : ∃ info, db.relationInfo s schema view = .ok info ∧ info.kind = .View
  definition : ∃ definition, db.viewDefinition s schema view = .ok definition ∧
    (trim definition = [] → names = []) ∧
    (trim definition ≠ [] → visitRelations db.dialect (trim definition) = some names)
  dependencies : ∀ definition,
    db.viewDependencies definition = viewDependencies visitRelations db.dialect definition

/-- One entry for each relation that the definition names, and `info_db` answers for each
entry with that entry. -/
def DependenciesTold (db : Database σ Stream) (s : σ) (schema view : Str)
    (names : List ObjectName) : Prop :=
  ∃ entries, lsDb db s (DbPath.facetPath schema view .DependsOn) = .ok entries ∧
    (entries.map (·.get "target".toList)).Perm
      ((referenced schema view names).map fun relation => some (pathOfRelation relation)) ∧
    (entries.map (·.name)).Nodup ∧
    ∀ entry ∈ entries, infoDb db s entry.name = .ok entry

/-! ### The listing -/

/-- What `depends_on_entry` takes for the schema and the name. -/
def target (schema dependency : Str) : Str × Str :=
  (rsplitOnce dependency '.').getD (schema, dependency)

def listed (schema view : Str) (names : List ObjectName) : List Str :=
  (names.foldl visit []).filter fun dependency => (target schema dependency).2 ≠ view

theorem nodup_listed (schema view : Str) (names : List ObjectName) :
    (listed schema view names).Nodup :=
  (nodup_foldl_visit names [] List.nodup_nil).filter _

theorem mem_listed (schema view : Str) (names : List ObjectName) (dependency : Str) :
    dependency ∈ listed schema view names ↔
      (dependency ≠ [] ∧ ∃ name ∈ names, rendered name = dependency) ∧
        (target schema dependency).2 ≠ view := by
  rw [listed, List.mem_filter, mem_foldl_visit]
  simp

theorem viewDependencies_eq (visitRelations : Dialect → Str → Option (List ObjectName))
    (db : Database σ Stream) (s : σ) (schema view : Str) (names : List ObjectName)
    (h : ViewOf visitRelations db s schema view names) :
    facetEntries db s schema view .DependsOn =
      .ok ((listed schema view names).map (dependsOnEntry schema view)) := by
  obtain ⟨info, hinfo, hview⟩ := h.info
  obtain ⟨definition, hdefinition, hblank, hvisit⟩ := h.definition
  have hfound : db.viewDependencies definition = names.foldl visit [] := by
    rw [h.dependencies, viewDependencies]
    by_cases hempty : trim definition = []
    · rw [if_pos hempty, hblank hempty]
      rfl
    · simp only [if_neg hempty, hvisit hempty]
  have htable (dependency : Str) :
      ((rsplitOnce dependency '.').map Prod.snd).getD dependency =
        (target schema dependency).2 := by
    rw [target]
    cases rsplitOnce dependency '.' <;> rfl
  rw [facetEntries, hinfo]
  simp only [bind, Except.bind, hview, hdefinition, hfound, htable, listed]
  rfl

theorem dependsOnEntry_name (schema view dependency : Str) :
    (dependsOnEntry schema view dependency).name =
      DbPath.facetItemPath schema view .DependsOn (target schema dependency).2 := rfl

theorem dependsOnEntry_kind (schema view dependency : Str) :
    (dependsOnEntry schema view dependency).get "kind".toList = some "depends_on".toList := rfl

/-! ### Looking up an entry -/

/- What `rsplit('/').next()` gives. -/
def lastSegment (text : Str) : Str := (text.splitOn '/').getLast?.getD []

theorem getLast?_splitOn (text : Str) : (text.splitOn '/').getLast? = some (lastSegment text) := by
  rw [lastSegment, List.getLast?_eq_some_getLast (List.splitOn_ne_nil '/' text)]
  rfl

theorem lastSegment_append (before after : Str) :
    lastSegment (before ++ '/' :: after) = lastSegment after := by
  obtain ⟨first, pieces, heq⟩ := splitOn_append before after '/'
  rw [lastSegment, heq, List.getLast?_append_of_ne_nil _ (List.splitOn_ne_nil '/' after)]
  rfl

theorem lastSegment_eq_self (text : Str) (h : '/' ∉ text) : lastSegment text = text := by
  rw [lastSegment, List.splitOn_eq_singleton h]
  rfl

theorem lastSegment_entry (schema view dependency : Str) :
    lastSegment (dependsOnEntry schema view dependency).name =
      lastSegment (target schema dependency).2 :=
  lastSegment_append ('/' :: schema ++ '/' :: view ++ '/' :: DbFacet.DependsOn.asStr) _

theorem lastSegment_pathOfRelation (relation : Str × Str) :
    lastSegment (pathOfRelation relation) = lastSegment relation.2 :=
  lastSegment_append ('/' :: relation.1) relation.2

theorem insertSome_get_ne (info : FileInfo) (key key' : Str) (value : Option Str)
    (h : key' ≠ key) : (info.insertSome key value).get key' = info.get key' := by
  cases value with
  | none => rfl
  | some value => exact FileInfo.insert_get_ne info key key' value h

/- No other facet has entries of this kind. -/
theorem eq_dependsOnEntry (db : Database σ Stream) (s : σ) (schema relation : Str)
    (facet : DbFacet) (entries : List FileInfo) (entry : FileInfo)
    (h : facetEntries db s schema relation facet = .ok entries) (hentry : entry ∈ entries)
    (hkind : entry.get "kind".toList = some "depends_on".toList) :
    facet = .DependsOn ∧ ∃ dependency, entry = dependsOnEntry schema relation dependency := by
  obtain ⟨_, _, h⟩ := Checked.bind_eq_ok_iff.mp h
  cases facet with
  | Columns =>
    obtain ⟨columns, _, heq⟩ := Checked.bind_eq_ok_iff.mp h
    rw [← Except.ok.inj heq] at hentry
    obtain ⟨column, _, rfl⟩ := List.mem_map.mp hentry
    have hcolumn : (columnInfo schema relation column).get "kind".toList =
        some "column".toList := by
      rw [columnInfo, insertSome_get_ne _ _ _ _ (by decide), insertSome_get_ne _ _ _ _ (by decide),
        FileInfo.insert_get_ne _ _ _ _ (by decide), FileInfo.insert_get_ne _ _ _ _ (by decide),
        FileInfo.insert_get_ne _ _ _ _ (by decide), FileInfo.insert_get_ne _ _ _ _ (by decide),
        FileInfo.insert_get_self]
    rw [hcolumn] at hkind
    exact absurd hkind (by decide)
  | Indexes =>
    obtain ⟨indexes, _, heq⟩ := Checked.bind_eq_ok_iff.mp h
    rw [← Except.ok.inj heq] at hentry
    obtain ⟨index, _, rfl⟩ := List.mem_map.mp hentry
    have hindex : (indexInfo schema relation index).get "kind".toList = some "index".toList := by
      rw [indexInfo, insertSome_get_ne _ _ _ _ (by decide),
        FileInfo.insert_get_ne _ _ _ _ (by decide), FileInfo.insert_get_ne _ _ _ _ (by decide),
        FileInfo.insert_get_self]
    rw [hindex] at hkind
    exact absurd hkind (by decide)
  | Constraints =>
    obtain ⟨constraints, _, heq⟩ := Checked.bind_eq_ok_iff.mp h
    rw [← Except.ok.inj heq] at hentry
    obtain ⟨constraint, _, rfl⟩ := List.mem_map.mp hentry
    have hconstraint : (constraintInfo schema relation constraint).get "kind".toList =
        some constraint.kind.asStr := by
      rw [constraintInfo, insertSome_get_ne _ _ _ _ (by decide),
        insertSome_get_ne _ _ _ _ (by decide), FileInfo.insert_get_ne _ _ _ _ (by decide),
        FileInfo.insert_get_self]
    rw [hconstraint] at hkind
    cases hkindOf : constraint.kind <;> rw [hkindOf] at hkind <;> exact absurd hkind (by decide)
  | DependsOn =>
    refine ⟨rfl, ?_⟩
    obtain ⟨info, _, h⟩ := Checked.bind_eq_ok_iff.mp h
    by_cases hview : info.kind = .View
    · rw [if_neg (not_not_intro hview)] at h
      obtain ⟨definition, _, heq⟩ := Checked.bind_eq_ok_iff.mp h
      rw [← Except.ok.inj heq] at hentry
      obtain ⟨dependency, _, rfl⟩ := List.mem_map.mp hentry
      exact ⟨dependency, rfl⟩
    · rw [if_pos hview] at h
      rw [← Except.ok.inj h] at hentry
      simp at hentry

theorem facetItemPath_names (schema view item schema' view' item' : Str) (hschema : Segment schema)
    (hview : Segment view) (hschema' : Segment schema') (hview' : Segment view')
    (h : DbPath.facetItemPath schema' view' .DependsOn item' =
      DbPath.facetItemPath schema view .DependsOn item) : schema' = schema ∧ view' = view := by
  have hshape (a b c : Str) : DbPath.facetItemPath a b .DependsOn c =
      '/' :: (a ++ '/' :: (b ++ '/' :: (DbFacet.DependsOn.asStr ++ '/' :: c))) := by
    simp [DbPath.facetItemPath]
  rw [hshape, hshape] at h
  have hschemas := congrArg (splitOnce · ['/']) (List.cons.inj h).2
  simp only [splitOnce_append _ _ '/' hschema.1.2, splitOnce_append _ _ '/' hschema'.1.2,
    Option.some.injEq, Prod.mk.injEq] at hschemas
  have hviews := congrArg (splitOnce · ['/']) hschemas.2
  simp only [splitOnce_append _ _ '/' hview.1.2, splitOnce_append _ _ '/' hview'.1.2,
    Option.some.injEq, Prod.mk.injEq] at hviews
  exact ⟨hschemas.1, hviews.1⟩

/-- The path of the entry with the name is parsed into an item of the view's facet. -/
def Found (schema view table : Str) : Prop :=
  ∃ query, DbPath.parse (DbPath.facetItemPath schema view .DependsOn table) =
    .ok ⟨some schema, some view, .Facet .DependsOn (some (lastSegment table)), query⟩

theorem infoDb_found (db : Database σ Stream) (s : σ) (schema view table : Str)
    (h : Found schema view table) :
    infoDb db s (DbPath.facetItemPath schema view .DependsOn table) =
      facetItemInfo db s schema view .DependsOn (lastSegment table) := by
  obtain ⟨query, hparse⟩ := h
  rw [infoDb, hparse]
  rfl

/- A file of this kind is only given for an item of a facet. -/
theorem infoDb_dependsOn (db : Database σ Stream) (s : σ) (path : Str) (entry : FileInfo)
    (h : infoDb db s path = .ok entry) (hfile : entry.fileType = .File)
    (hkind : entry.get "kind".toList = some "depends_on".toList) :
    ∃ schema view facet item query, DbPath.parse path =
        .ok ⟨some schema, some view, .Facet facet (some item), query⟩ ∧
      Segment schema ∧ Segment view ∧ facetItemInfo db s schema view facet item = .ok entry := by
  obtain ⟨⟨schema?, view?, kind, query⟩, hparse, h⟩ := Checked.bind_eq_ok_iff.mp h
  have hnames := parse_names _ _ hparse
  cases kind with
  | Root =>
    rw [← Except.ok.inj h] at hfile
    cases hfile
  | Schema =>
    obtain ⟨_, _, h⟩ := Checked.bind_eq_ok_iff.mp h
    obtain ⟨_, _, heq⟩ := Checked.bind_eq_ok_iff.mp h
    rw [← Except.ok.inj heq] at hfile
    simp [schemaInfo, FileInfo.directory] at hfile
  | Relation =>
    obtain ⟨_, _, h⟩ := Checked.bind_eq_ok_iff.mp h
    obtain ⟨_, _, heq⟩ := Checked.bind_eq_ok_iff.mp h
    rw [← Except.ok.inj heq] at hfile
    simp [relationInfo, FileInfo.directory] at hfile
  | RelationData format =>
    obtain ⟨_, _, h⟩ := Checked.bind_eq_ok_iff.mp h
    obtain ⟨info, _, heq⟩ := Checked.bind_eq_ok_iff.mp h
    rw [← Except.ok.inj heq, relationDataFile, FileInfo.insert_get_ne _ _ _ _ (by decide),
      FileInfo.insert_get_ne _ _ _ _ (by decide), FileInfo.insert_get_self] at hkind
    cases hkindOf : info.kind <;> rw [hkindOf] at hkind <;> exact absurd hkind (by decide)
  | ViewDefinition =>
    obtain ⟨_, _, h⟩ := Checked.bind_eq_ok_iff.mp h
    obtain ⟨_, _, heq⟩ := Checked.bind_eq_ok_iff.mp h
    rw [← Except.ok.inj heq, viewDefinitionFile, FileInfo.insert_get_ne _ _ _ _ (by decide),
      FileInfo.insert_get_self] at hkind
    exact absurd hkind (by decide)
  | Facet facet item =>
    obtain ⟨schema, view, rfl, rfl, hschema, hview⟩ := hnames
    cases item with
    | none =>
      obtain ⟨_, ⟨⟩, h⟩ := Checked.bind_eq_ok_iff.mp h
      obtain ⟨_, _, heq⟩ := Checked.bind_eq_ok_iff.mp h
      rw [← Except.ok.inj heq] at hfile
      simp [facetDir, FileInfo.directory] at hfile
    | some item =>
      obtain ⟨_, ⟨⟩, h⟩ := Checked.bind_eq_ok_iff.mp h
      exact ⟨schema, view, facet, item, query, hparse, hschema, hview, h⟩

/- A file of this kind and this name is only given for an item of the view's facet. -/
theorem infoDb_entry_iff (db : Database σ Stream) (s : σ) (schema view dependency : Str)
    (entries : List FileInfo) (hschema : Segment schema) (hview : Segment view)
    (hfacet : facetEntries db s schema view .DependsOn = .ok entries) :
    infoDb db s (dependsOnEntry schema view dependency).name =
        .ok (dependsOnEntry schema view dependency) ↔
      Found schema view (target schema dependency).2 ∧
        entries.find? (fun entry => lastSegment entry.name =
            lastSegment (target schema dependency).2) =
          some (dependsOnEntry schema view dependency) := by
  have hlookup (item : Str) : facetItemInfo db s schema view .DependsOn item =
      .ok (dependsOnEntry schema view dependency) ↔
        entries.find? (fun entry => lastSegment entry.name = item) =
          some (dependsOnEntry schema view dependency) := by
    rw [facetItemInfo, hfacet]
    simp only [getLast?_splitOn, Option.some.injEq, bind, Except.bind]
    cases entries.find? fun entry => lastSegment entry.name = item with
    | none => simp
    | some entry => simp
  constructor
  · intro h
    have hkind := dependsOnEntry_kind schema view dependency
    obtain ⟨schema', view', facet, item, query, hparse, hschema', hview', hitem⟩ :=
      infoDb_dependsOn db s _ _ h rfl hkind
    -- the entry found is one of some view's facet, and its name tells which
    obtain ⟨entries', hentries', hfind⟩ := Checked.bind_eq_ok_iff.mp hitem
    split at hfind
    · next entry hsome =>
      obtain rfl := Except.ok.inj hfind
      obtain ⟨rfl, other, heq⟩ := eq_dependsOnEntry db s schema' view' facet entries' _
        hentries' (List.mem_of_find?_eq_some hsome) hkind
      obtain ⟨rfl, rfl⟩ := facetItemPath_names schema view _ schema' view' _ hschema hview
        hschema' hview' (congrArg FileInfo.name heq).symm
      have hlast := List.find?_some hsome
      rw [decide_eq_true_eq, getLast?_splitOn, lastSegment_entry, Option.some.injEq] at hlast
      rw [← hlast] at hparse hitem
      exact ⟨⟨query, hparse⟩, (hlookup _).mp hitem⟩
    · cases hfind
  · intro hgiven
    obtain ⟨hfound, hfind⟩ := hgiven
    rw [dependsOnEntry_name, infoDb_found db s schema view _ hfound]
    exact (hlookup _).mpr hfind

end FsspecDb.Fs
