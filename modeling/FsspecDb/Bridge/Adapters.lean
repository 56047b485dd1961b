import FsspecDb.Bridge.Conformance

/-!
# Listings, metadata and write targets of the two adapters

The three calls on a path that both parsers read alike, by the kind of the path.
-/

namespace FsspecDb.Python
open Text Ddl Bridge Bridge.Backend Checked

section
variable {σ Stream Table : Type} (viewDependencies dependencies : Str → List Str)
  (toTable : Stream → Except DbError Table) (db : AbstractDatabase σ Table) (s : σ)

theorem ensureSchema_related (schema : Str) :
    Related SameDbError (fun info info' => info = info')
      (Fs.ensureSchema (db.bridged viewDependencies toTable) s schema)
      (ensureSchema db s schema) := by
  refine (raised_related (db.listSchemas s)).bind ?_
  intro schemas schemas' _ _ heq
  subst heq
  cases schemas.find? fun info => info.name = schema with
  | none => exact .error _ _ rfl
  | some info => exact .ok info info rfl

/-! ### The size of a data file -/

theorem showsUnsized_of_shows (dict : Dict) (entry : Entry) (h : Shows dict entry) :
    ShowsUnsized dict entry :=
  holds_subset h (List.filter_subset_self _)

theorem showsUnsized_data (dialect : Dialect) (schema relation : Str) (info : RelationInfo)
    (format : DataFormat) :
    ShowsUnsized
      (fileInfoToDict (relationDataFile dialect schema relation info.kind format))
      (file ('/' :: schema ++ '/' :: relation ++ '.' :: format.extension)
        ((info.sizeBytes.map UInt64.toNat).getD 0)
        [("kind".toList, some (.str info.kind.asStr)),
          ("row_count".toList, info.rowCount.map fun n => .int n.toNat),
          ("size_known".toList, some (.bool info.sizeBytes.isSome))]) := by
  let texts : List (Str × Option Str) := [("size_known".toList, some "false".toList),
    ("kind".toList, some info.kind.asStr), ("format".toList, some format.extension),
    ("dialect".toList, some dialect.asStr)]
  have hread : Holds
      (fileInfoToDict (relationDataFile dialect schema relation info.kind format))
      (readBack texts) :=
    withTexts_holds (.file (DbPath.relationDataPath schema relation format) 0) texts rfl
      (by simp only [texts, List.map_cons, List.map_nil]; decide)
      (by simp only [texts, List.map_cons, List.map_nil]; decide)
  intro field hfield
  obtain ⟨hitem, hkey⟩ := List.mem_filter.mp hfield
  simp only [Entry.items, file, List.mem_cons, List.not_mem_nil, or_false] at hitem
  rcases hitem with rfl | rfl | rfl | rfl | rfl | rfl
  · exact fileInfoToDict_name _
  · exact absurd hkey (by simp)
  · exact fileInfoToDict_type _
  · exact hread ("kind".toList, some (.str info.kind.asStr)) (by simp [readBack, texts]; rfl)
  · exact absurd hkey (by simp)
  · exact absurd hkey (by simp)

/-! ### By the kind of the path -/

theorem name_of_shows (info : FileInfo) (entry : Entry) (h : ShowsInfo info entry) :
    info.name = entry.name := by
  have hname := h ("name".toList, some (.str entry.name)) List.mem_cons_self
  rw [fileInfoToDict_name] at hname
  exact PyItem.str.inj (Option.some.inj hname)

theorem data_names (netlocError : Str → Option Str) (path : Str) (parsed : Path)
    (h : parse netlocError path = .ok parsed) (hkind : parsed.kind = .data) :
    ∃ schema relation, parsed.schema = some schema ∧ parsed.relation = some relation := by
  rw [parse] at h
  cases hparse : parsePath netlocError path with
  | error err => simp [hparse, Except.mapError] at h
  | ok parsed' =>
    rw [hparse] at h
    rw [← Except.ok.inj h] at hkind ⊢
    exact parsePath_data netlocError path parsed' hparse hkind

theorem bridge_related {α β : Type} {R : α → β → Prop} {x : Except DbError α}
    {y : Except Raised β} (h : Related SameDbError R x y) :
    Related SameError R (x.mapError (Fs.fsErrorToPyerr ∘ Fs.FsError.ofDbError)) y := by
  apply h.mapError_left
  intro err raised hsame
  rw [Function.comp_apply, Fs.fsErrorToPyerr_ofDbError]
  exact hsame

section
variable (netlocError : Str → Option Str) (path : Str) (parsed : DbPath)
  (hnative : DbPath.parse path = .ok parsed)
  (hpython : parse netlocError path = .ok (DbPath.asPython parsed)) (htidy : Tidy db s)
  (hdepends : ∀ item, parsed.kind ≠ .Facet .DependsOn item)
include hnative hpython htidy hdepends

theorem ls_related (hitem : ∀ facet item, parsed.kind ≠ .Facet facet (some item)) :
    Related SameDbError (List.Forall₂ ShowsInfo)
      (Fs.lsDb (db.bridged viewDependencies toTable) s path)
      (relationFirst netlocError db s path (lsUncached netlocError dependencies db s path)) := by
  have hnames := parse_names path parsed hnative
  rw [Fs.lsDb, hnative, relationFirst, lsUncached, hpython]
  obtain ⟨schema, relation, kind, query⟩ := parsed
  cases kind with
  | Root =>
    exact listing_related (db.listSchemas s) Fs.schemaInfo schemaInfo
      fun _ _ schema _ => shows_schema schema
  | Schema =>
    obtain ⟨schema, hschema, _⟩ := hnames
    cases hschema
    refine (ensureSchema_related viewDependencies toTable db s schema).bind ?_
    intro _ _ _ _ _
    exact listing_related (db.listRelations s schema) (Fs.relationInfo schema)
      (relationInfo schema) fun _ _ relation _ => shows_relation schema relation
  | Relation =>
    obtain ⟨schema, relation, hschema, hrelation, _⟩ := hnames
    cases hschema
    cases hrelation
    refine (raised_related (db.relationInfo s schema relation)).bind ?_
    intro info info' _ _ heq
    subst heq
    have hfacets : List.Forall₂ ShowsInfo
        ([DbFacet.Columns, .Indexes, .Constraints].map (Fs.facetDir schema relation))
        ([DbFacet.Columns, .Indexes, .Constraints].map fun facet =>
          directory ('/' :: schema ++ '/' :: relation ++ '/' :: facet.asStr) []) := by
      rw [List.forall₂_map_left_iff, List.forall₂_map_right_iff, List.forall₂_same]
      exact fun facet _ => shows_facetDir schema relation facet
    dsimp only
    by_cases hview : info.kind = .View
    · rw [if_pos hview, if_pos hview]
      exact .ok _ _ (List.rel_append hfacets (.cons (shows_facetDir schema relation .DependsOn)
        (.cons (shows_definition schema relation 0) .nil)))
    · rw [if_neg hview, if_neg hview]
      exact .ok _ _ hfacets
  | Facet facet item =>
    obtain ⟨schema, relation, hschema, hrelation, _⟩ := hnames
    cases hschema
    cases hrelation
    cases item with
    | none =>
      exact facetEntries_related viewDependencies dependencies toTable db s htidy schema relation
        facet none query fun heq => hdepends none (heq ▸ rfl)
    | some item => exact absurd rfl (hitem facet item)
  | RelationData format => exact .error _ _ rfl
  | ViewDefinition => exact .error _ _ rfl

theorem info_related :
    Related SameDbError (fun info entry => ShowsUnsized (fileInfoToDict info) entry ∧
        ((∀ format, parsed.kind ≠ .RelationData format) → ShowsInfo info entry))
      (Fs.infoDb (db.bridged viewDependencies toTable) s path)
      (relationFirst netlocError db s path
        (infoUncached netlocError dependencies db s path)) := by
  have hnames := parse_names path parsed hnative
  have hboth : ∀ info entry, ShowsInfo info entry → ShowsUnsized (fileInfoToDict info) entry ∧
      ((∀ format, parsed.kind ≠ .RelationData format) → ShowsInfo info entry) :=
    fun info entry h => ⟨showsUnsized_of_shows _ _ h, fun _ => h⟩
  rw [Fs.infoDb, hnative, relationFirst, infoUncached, hpython]
  obtain ⟨schema, relation, kind, query⟩ := parsed
  cases kind with
  | Root => exact .ok _ _ (hboth _ _ (shows_of_holds _ _ rfl rfl rfl (holds_nil _)))
  | Schema =>
    obtain ⟨schema, hschema, _⟩ := hnames
    cases hschema
    refine (ensureSchema_related viewDependencies toTable db s schema).map ?_
    intro info info' _ _ heq
    exact hboth _ _ (heq ▸ shows_schema info)
  | Relation =>
    obtain ⟨schema, relation, hschema, hrelation, _⟩ := hnames
    cases hschema
    cases hrelation
    refine (raised_related (db.relationInfo s schema relation)).map ?_
    intro info info' _ _ heq
    exact hboth _ _ (heq ▸ shows_relation schema info)
  | Facet facet item =>
    obtain ⟨schema, relation, hschema, hrelation, _⟩ := hnames
    cases hschema
    cases hrelation
    have hfacet : facet ≠ .DependsOn := fun heq => hdepends item (heq ▸ rfl)
    cases item with
    | none =>
      refine (raised_related (db.relationInfo s schema relation)).bind ?_
      intro _ info' _ hinfo _
      change Related _ _ _ (raised (db.relationInfo s schema relation) >>= fun _ => _)
      rw [hinfo]
      exact .ok _ _ (hboth _ _ (shows_facetDir schema relation facet))
    | some item =>
      have hentries := facetEntries_related viewDependencies dependencies toTable db s htidy schema
        relation facet (some item) query hfacet
      change Related _ _ (Fs.facetEntries _ s schema relation facet >>= _)
        (raised (db.relationInfo s schema relation) >>= fun _ =>
          facetEntries dependencies db s _ >>= _)
      rw [← bind_assoc]
      refine hentries.bind ?_
      intro infos entries _ hlist hshows
      obtain ⟨_, _, hlist⟩ := bind_eq_ok_iff.mp hlist
      have hfind := Keyed.find_related (fun info : FileInfo => lastPart info.name)
        (fun entry : Entry => lastPart entry.name) hshows
        (fun info entry h => congrArg lastPart (name_of_shows info entry h))
        (facetEntries_nodup dependencies db s htidy schema relation facet (some item) query hfacet
          entries hlist) item
      simp only [getLast?_splitOn, Option.some.injEq]
      generalize infos.find? (fun info => lastPart info.name = item) = info at hfind
      generalize entries.reverse.find? (fun entry => lastPart entry.name = item) = entry at hfind
      cases hfind with
      | none => exact .error _ _ rfl
      | some h => exact .ok _ _ (hboth _ _ h)
  | RelationData format =>
    obtain ⟨schema, relation, hschema, hrelation⟩ := data_names netlocError path _ hpython rfl
    cases hschema
    cases hrelation
    refine (raised_related (db.relationInfo s schema relation)).map ?_
    intro info info' _ _ heq
    subst heq
    exact ⟨showsUnsized_data db.dialect schema relation info format,
      fun hdata => absurd rfl (hdata format)⟩
  | ViewDefinition =>
    obtain ⟨schema, relation, hschema, hrelation, _⟩ := hnames
    cases hschema
    cases hrelation
    refine (raised_related (db.viewDefinition s schema relation)).map ?_
    intro definition definition' _ _ heq
    exact hboth _ _ (heq ▸ shows_definition schema relation _)

omit htidy hdepends in
theorem target_related :
    Related (fun err raised => SameRefusal (some (DbPath.asPython parsed).kind)
        (Fs.dbErrorToPyerr err) raised)
      (fun target target' => target' = (target.1, target.2.1, target.2.2.extension))
      (Fs.writeTarget (db.bridged viewDependencies toTable) s path)
      (writeTarget netlocError db s path) := by
  rw [Fs.writeTarget, hnative, writeTarget, hpython]
  by_cases hdata : ∃ format, parsed.kind = .RelationData format
  · obtain ⟨format, hformat⟩ := hdata
    obtain ⟨schema, relation, kind, query⟩ := parsed
    cases hformat
    obtain ⟨schema, relation, hschema, hrelation⟩ := data_names netlocError path _ hpython rfl
    cases hschema
    cases hrelation
    by_cases hsql : format = .Sql
    · subst hsql
      exact .error _ _ rfl
    · have hextension : format.extension ≠ "sql".toList := by
        intro heq
        apply hsql
        cases format <;> first | rfl | exact absurd heq (by decide)
      have hwritable : ¬ (PathKind.data ≠ .data ∨ some format.extension = some "sql".toList) := by
        simpa using hextension
      change Related _ _ (if format = .Sql then _ else _) (if _ then _ else _)
      rw [if_neg hsql]
      refine Eq.mp (congrArg _ (if_neg hwritable).symm) ?_
      have hasked : Related
          (fun err raised => SameRefusal (some .data) (Fs.dbErrorToPyerr err) raised)
          (fun info info' => info = info') (mapPy (db.relationInfo s schema relation))
          (raised (db.relationInfo s schema relation)) :=
        Related.of_mapError _ _ _ fun err => dbErrorToPyerr_pyerrToDbError err
      refine hasked.bind ?_
      intro info info' _ _ heq
      subst heq
      by_cases htable : info.kind = .Table
      · rw [if_neg (not_not_intro htable), if_neg (not_not_intro htable)]
        exact .ok _ _ rfl
      · rw [if_pos htable, if_pos htable]
        exact .error _ _ ⟨rfl, rfl⟩
  · obtain ⟨schema, relation, kind, query⟩ := parsed
    cases kind with
    | RelationData format => exact absurd ⟨format, rfl⟩ hdata
    | Root => exact .error _ _ rfl
    | Schema => exact .error _ _ rfl
    | Relation => exact .error _ _ rfl
    | Facet facet item => exact .error _ _ rfl
    | ViewDefinition => exact .error _ _ rfl

end

/-! ### The adapters -/

/- What kind of path the direct adapter sees, and the item whose path it is. -/
def kindOf (netlocError : Str → Option Str) (path : Str) : Option PathKind :=
  (parse netlocError path).toOption.map (·.kind)

def itemOf (netlocError : Str → Option Str) (path : Str) : Option Str :=
  (parse netlocError path).toOption.bind (·.item)

/- In the facet whose names the adapters find with different readers of SQL. -/
def InDependsOn (netlocError : Str → Option Str) (path : Str) : Prop :=
  kindOf netlocError path = some .facet ∧
    (parse netlocError path).toOption.bind (·.format) = some "depends_on".toList

theorem sameRefusal_of_same (kind : Option PathKind) (err : Fs.PyErr) (raised : Raised)
    (h : SameError err raised) : SameRefusal kind err raised := by
  cases raised with
  | ValueError msg => exact absurd h not_false
  | NotImplementedError msg => exact absurd h not_false
  | parse err' => exact h
  | database err' => exact h
  | FileNotFoundError path => exact h
  | NotADirectoryError path => exact h

section
variable (netlocError : Str → Option Str) (path : Str)
  (hparsers : ParsersAgree netlocError path)
include hparsers

/- Both refuse the path, or both see the same in it. -/
theorem parsed_alike :
    (∃ err raised, DbPath.parse path = .error err ∧ parse netlocError path = .error raised ∧
      SameDbError err raised) ∨
    ∃ parsed, DbPath.parse path = .ok parsed ∧
      parse netlocError path = .ok (DbPath.asPython parsed) := by
  have hparse := parse_related netlocError path hparsers
  generalize DbPath.parse path = native at hparse
  generalize parse netlocError path = python at hparse
  cases hparse with
  | error err raised hsame => exact .inl ⟨err, raised, rfl, rfl, hsame⟩
  | ok parsed _ heq => exact .inr ⟨parsed, rfl, congrArg Except.ok heq⟩

theorem ls_item_refused (hitem : itemOf netlocError path ≠ none) :
    ∃ err, bridgeLs (db.bridged viewDependencies toTable) s path = .error err ∧
      err.cls = .NotADirectoryError := by
  rcases parsed_alike netlocError path hparsers with
    ⟨err, raised, _, hpython, _⟩ | ⟨parsed, hnative, hpython⟩
  · rw [itemOf, hpython] at hitem
    exact absurd rfl hitem
  · rw [itemOf, hpython] at hitem
    rw [bridgeLs, Fs.lsDb, hnative]
    obtain ⟨schema, relation, kind, query⟩ := parsed
    cases kind with
    | Facet facet item =>
      cases item with
      | none => exact absurd rfl hitem
      | some item => exact ⟨_, rfl, rfl⟩
    | Root => exact absurd rfl hitem
    | Schema => exact absurd rfl hitem
    | Relation => exact absurd rfl hitem
    | RelationData format => exact absurd rfl hitem
    | ViewDefinition => exact absurd rfl hitem

theorem target_agrees :
    Related (SameRefusal (kindOf netlocError path))
      (fun target target' => target' = (target.1, target.2.1, target.2.2.extension))
      (bridgeTarget (db.bridged viewDependencies toTable) s path)
      (writeTarget netlocError db s path) := by
  rcases parsed_alike netlocError path hparsers with
    ⟨err, raised, hnative, hpython, hsame⟩ | ⟨parsed, hnative, hpython⟩
  · rw [bridgeTarget, Fs.writeTarget, hnative, writeTarget, hpython]
    exact .error _ _ (sameRefusal_of_same _ _ raised hsame)
  · rw [kindOf, hpython]
    exact (target_related viewDependencies toTable db s netlocError path parsed hnative
      hpython).mapError_left _ fun _ _ h => h

variable (htidy : Tidy db s) (hdepends : ¬ InDependsOn netlocError path)
include htidy hdepends

omit hparsers htidy in
theorem not_dependsOn (parsed : DbPath)
    (hpython : parse netlocError path = .ok (DbPath.asPython parsed)) :
    ∀ item, parsed.kind ≠ .Facet .DependsOn item := by
  intro item hkind
  apply hdepends
  rw [InDependsOn, kindOf, hpython]
  obtain ⟨schema, relation, kind, query⟩ := parsed
  cases hkind
  exact ⟨rfl, rfl⟩

theorem ls_agrees (hitem : itemOf netlocError path = none) :
    Related SameError (List.Forall₂ Shows)
      (bridgeLs (db.bridged viewDependencies toTable) s path)
      (relationFirst netlocError db s path (lsUncached netlocError dependencies db s path)) := by
  rcases parsed_alike netlocError path hparsers with
    ⟨err, raised, hnative, hpython, hsame⟩ | ⟨parsed, hnative, hpython⟩
  · have hrefused : Fs.lsDb (db.bridged viewDependencies toTable) s path = .error err := by
      rw [Fs.lsDb, hnative]
      rfl
    rw [bridgeLs, hrefused, relationFirst, hpython]
    exact bridge_related (.error err raised hsame)
  · have hlisted := ls_related viewDependencies dependencies toTable db s netlocError path parsed
      hnative hpython htidy (not_dependsOn netlocError path hdepends parsed hpython) ?_
    · apply bridge_related
      apply hlisted.map_left
      intro infos entries h
      exact List.forall₂_map_left_iff.mpr h
    · intro facet item hkind
      rw [itemOf, hpython] at hitem
      simp [Except.toOption, DbPath.asPython, hkind] at hitem

theorem info_agrees :
    Related SameError (fun dict entry => ShowsUnsized dict entry ∧
        (kindOf netlocError path ≠ some .data → Shows dict entry))
      (bridgeInfo (db.bridged viewDependencies toTable) s path)
      (relationFirst netlocError db s path
        (infoUncached netlocError dependencies db s path)) := by
  rcases parsed_alike netlocError path hparsers with
    ⟨err, raised, hnative, hpython, hsame⟩ | ⟨parsed, hnative, hpython⟩
  · have hrefused : Fs.infoDb (db.bridged viewDependencies toTable) s path = .error err := by
      rw [Fs.infoDb, hnative]
      rfl
    rw [bridgeInfo, hrefused, relationFirst, hpython]
    exact bridge_related (.error err raised hsame)
  · have hdescribed := info_related viewDependencies dependencies toTable db s netlocError path
      parsed hnative hpython htidy (not_dependsOn netlocError path hdepends parsed hpython)
    apply bridge_related
    apply hdescribed.map_left
    intro info entry h
    refine ⟨h.1, fun hkind => h.2 fun format hformat => hkind ?_⟩
    rw [kindOf, hpython]
    simp [Except.toOption, DbPath.asPython, hformat]

end

end

theorem smallDatabase_tidy : Tidy smallDatabase 0 where
  columns _ _ columns hlist := by
    rw [← Except.ok.inj hlist]
    decide
  indexes _ _ indexes hlist := by
    rw [← Except.ok.inj hlist]
    decide
  constraints _ _ constraints hlist := by
    rw [← Except.ok.inj hlist]
    decide

end FsspecDb.Python
