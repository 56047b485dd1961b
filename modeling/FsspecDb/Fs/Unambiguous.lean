import FsspecDb.Fs.Dependencies

/-!
# Plain names of relations

Where no part of a name holds a dot or a slash and all are printed as they are, the names of
a definition are told apart unless two relations share their own name.
-/

namespace FsspecDb.Fs
open Text Sql

variable {σ Stream : Type}

/-- An identifier that is printed as itself between quotes, without separators. -/
def Plain (part : Ident) : Prop :=
  trimQuotes part.text = part.value ∧ part.value ≠ [] ∧ '.' ∉ part.value ∧ '/' ∉ part.value

instance (part : Ident) : Decidable (Plain part) := inferInstanceAs (Decidable (_ ∧ _))

def PlainName (name : ObjectName) : Prop := name ≠ [] ∧ ∀ part ∈ name, Plain part

instance (name : ObjectName) : Decidable (PlainName name) := inferInstanceAs (Decidable (_ ∧ _))

def values (name : ObjectName) : List Str := name.map (·.value)

/-- Only the view itself bears its name, no other name has more than two parts, one spelling
goes with one table, and the tables stand in paths. -/
structure Unambiguous (schema view : Str) (names : List ObjectName) : Prop where
  own : ∀ name ∈ names, ∀ owner, named schema name = some (owner, view) → owner = schema
  short : ∀ name ∈ names, ∀ owner table, named schema name = some (owner, table) →
    table ≠ view → name.length ≤ 2
  alike : ∀ name ∈ names, ∀ other ∈ names, ∀ owner owner' table,
    named schema name = some (owner, table) → named schema other = some (owner', table) →
    table ≠ view → values name = values other
  inPath : ∀ name ∈ names, ∀ owner table, named schema name = some (owner, table) →
    table ≠ view → PathName table

/-! ### One plain name -/

theorem rendered_plain (name : ObjectName) (h : PlainName name) :
    rendered name = join ['.'] (values name) := by
  rw [rendered, values]
  exact congrArg _ (List.map_congr_left fun part hpart => (h.2 part hpart).1)

theorem values_of_rendered (name other : ObjectName) (h : PlainName name) (hother : PlainName other)
    (heq : rendered name = rendered other) : values name = values other := by
  have hdots (name : ObjectName) (h : PlainName name) :
      (join ['.'] (values name)).splitOn '.' = values name := by
    refine List.splitOn_intercalate '.' ?_ (by simpa [values] using h.1)
    intro text htext
    obtain ⟨part, hpart, rfl⟩ := List.mem_map.mp htext
    exact (h.2 part hpart).2.2.1
  rw [← hdots name h, ← hdots other hother, ← rendered_plain name h, heq,
    rendered_plain other hother]

theorem join_concat (init : List Str) (last : Str) (hne : init ≠ []) :
    join ['.'] (init ++ [last]) = join ['.'] init ++ '.' :: last := by
  induction init with
  | nil => exact absurd rfl hne
  | cons first rest ih =>
    cases rest with
    | nil => simp [join, List.intercalate]
    | cons second rest =>
      have hrest := ih (by simp)
      simp only [join, List.cons_append, List.intercalate_cons_cons] at hrest ⊢
      rw [hrest]
      simp

/- What a plain name means, and what is read back from it. -/
theorem plain_target (schema : Str) (name : ObjectName) (h : PlainName name) :
    ∃ owner table, named schema name = some (owner, table) ∧
      (target schema (rendered name)).2 = table ∧ rendered name ≠ [] ∧ Component table ∧
      (name.length ≤ 2 → (target schema (rendered name)).1 = owner) ∧
      (2 < name.length → owner.length < (target schema (rendered name)).1.length) := by
  obtain ⟨init, last, rfl⟩ : ∃ init last, name = init ++ [last] :=
    ⟨_, _, (List.dropLast_append_getLast h.1).symm⟩
  obtain ⟨_, hlast, hdot, hslash⟩ := h.2 last (by simp)
  have hvalues : values (init ++ [last]) = values init ++ [last.value] := by simp [values]
  rw [rendered_plain _ h, hvalues]
  rcases List.eq_nil_or_concat init with rfl | ⟨init', owner, hinit⟩
  · refine ⟨schema, last.value, rfl, ?_, by simpa [values, join] using hlast, ⟨hlast, hslash⟩,
      fun _ => ?_, fun hlong => ?_⟩
    · simp [values, join, target, (rsplitOnce_eq_none_iff last.value '.').mpr hdot]
    · simp [values, join, target, (rsplitOnce_eq_none_iff last.value '.').mpr hdot]
    · simp at hlong
  · rw [List.concat_eq_append] at hinit
    subst hinit
    have hjoin := join_concat (values (init' ++ [owner])) last.value (by simp [values])
    have htarget : target schema (join ['.'] (values (init' ++ [owner]) ++ [last.value])) =
        (join ['.'] (values (init' ++ [owner])), last.value) := by
      rw [hjoin, target, rsplitOnce_append _ _ '.' hdot]
      rfl
    refine ⟨owner.value, last.value, by simp [named], by rw [htarget], by rw [hjoin]; simp,
      ⟨hlast, hslash⟩, fun hshort => ?_, fun hlong => ?_⟩
    · rw [htarget]
      have hempty : init' = [] := by
        rw [List.length_append, List.length_append, List.length_singleton,
          List.length_singleton] at hshort
        exact List.eq_nil_of_length_eq_zero (by omega)
      simp [hempty, values, join]
    · rw [htarget]
      have hinit' : values init' ≠ [] := by
        intro hempty
        rw [values, List.map_eq_nil_iff] at hempty
        rw [hempty] at hlong
        simp at hlong
      have howner : values (init' ++ [owner]) = values init' ++ [owner.value] := by simp [values]
      rw [howner, join_concat _ _ hinit', List.length_append, List.length_cons]
      omega

theorem kept_iff (schema view : Str) (name : ObjectName) (h : PlainName name) (owner table : Str)
    (hnamed : named schema name = some (owner, table)) : Kept schema view name ↔ table ≠ view := by
  obtain ⟨owner', table', hnamed', htable, hne, _⟩ := plain_target schema name h
  rw [hnamed, Option.some.injEq, Prod.mk.injEq] at hnamed'
  rw [Kept, htable, hnamed'.2]
  exact ⟨And.right, fun h => ⟨hne, h⟩⟩

/-- A table without slashes is found behind its view exactly if it stands in a path. -/
theorem found_iff (schema view table : Str) (hschema : Segment schema) (hview : Segment view)
    (htable : Component table) : Found schema view table ↔ PathName table := by
  have hlast := lastSegment_eq_self table htable.2
  constructor
  · intro h
    obtain ⟨query, hparse⟩ := h
    have hpath : DbPath.facetItemPath schema view .DependsOn table =
        slashed [schema, view, DbFacet.DependsOn.asStr, table] := by
      simp [DbPath.facetItemPath, slashed]
    have hparts : ∀ part ∈ [schema, view, DbFacet.DependsOn.asStr, table], Component part := by
      simp only [List.forall_mem_cons]
      exact ⟨hschema.1, hview.1, (pathName_asStr .DependsOn).segment.1, htable, by simp⟩
    obtain ⟨pathPart, query', hsplit⟩ : ∃ pathPart query', splitQuery (stripProtocol
        (DbPath.facetItemPath schema view .DependsOn table)) = (pathPart, query') := ⟨_, _, rfl⟩
    obtain ⟨hbase, _, _⟩ := parse_ok _ pathPart query' _ hsplit hparse
    have hwhole : DbPath.facetItemPath schema view .DependsOn table =
        pathOf (componentsOf pathPart) := by
      rw [hlast] at hbase
      exact hbase
    have hquestion : '?' ∉ DbPath.facetItemPath schema view .DependsOn table := by
      rw [hwhole]
      exact question_not_mem_pathOf _ pathPart query' hsplit
    -- without a query the whole path is what is split into the components
    rw [hpath, stripProtocol_slashed _ hparts, splitQuery,
      splitOnce_eq_none _ '?' [] (by rwa [← hpath])] at hsplit
    obtain ⟨rfl, _⟩ := Prod.mk.inj hsplit
    have hcomponents : componentsOf (slashed [schema, view, DbFacet.DependsOn.asStr, table]) =
        [schema, view, DbFacet.DependsOn.asStr, table] := by
      refine pathOf_injective _ _ ?_ (component_of_mem _) hparts
      rw [← hwhole, hpath, pathOf, if_neg (by simp)]
    have hblank := (componentsOf_slashed_iff _ hparts).mp hcomponents
    have hend := endsBlank_slashed_concat [schema, view, DbFacet.DependsOn.asStr] table htable.1
    refine ⟨htable.1, htable.2, fun hmem => hquestion ?_, fun hblank' => hblank (hend.mpr hblank')⟩
    rw [hpath]
    simp [slashed, hmem]
  · intro h
    refine ⟨[], ?_⟩
    rw [parse_facetItemPath schema view hschema hview .DependsOn table h, hlast]

/-! ### All names of a definition -/

section
variable (schema view : Str) (names : List ObjectName) (hschema : Segment schema)
  (hview : Segment view) (hplain : ∀ name ∈ names, PlainName name)
include hschema hview hplain

theorem unambiguous_of_readBack (hread : ReadBack schema view names) :
    Unambiguous schema view names := by
  /- The entry of a relation in the listing bears the relation's own name. -/
  have hentry : ∀ name ∈ names, ∀ owner table, named schema name = some (owner, table) →
      (owner, table) ≠ (schema, view) → table ≠ view ∧ ∃ other ∈ names,
        Kept schema view other ∧ (target schema (rendered other)).2 = table ∧
        pathOfRelation (target schema (rendered other)) = pathOfRelation (owner, table) := by
    intro name hname owner table hnamed hne
    obtain ⟨other, hother, hkept, hpath⟩ := hread.complete (owner, table)
      ((mem_referenced schema view names _).mpr ⟨⟨name, hname, hnamed⟩, hne⟩)
    obtain ⟨_, table₁, hnamed₁, _, _, hcomponent₁, _⟩ :=
      plain_target schema name (hplain name hname)
    obtain ⟨_, table₂, _, htable₂, _, hcomponent₂, _⟩ :=
      plain_target schema other (hplain other hother)
    rw [hnamed, Option.some.injEq, Prod.mk.injEq] at hnamed₁
    have hlast := congrArg lastSegment hpath
    rw [lastSegment_pathOfRelation, lastSegment_pathOfRelation, htable₂, hnamed₁.2,
      lastSegment_eq_self _ hcomponent₁.2, lastSegment_eq_self _ hcomponent₂.2] at hlast
    have htable : (target schema (rendered other)).2 = table := by
      rw [htable₂, hlast, hnamed₁.2]
    exact ⟨by rw [← htable]; exact hkept.2, other, hother, hkept, htable, hpath⟩
  have htold : ∀ name ∈ names, ∀ other ∈ names, ∀ owner table, named schema name =
      some (owner, table) → table ≠ view → Kept schema view other →
      (target schema (rendered other)).2 = table → rendered name = rendered other := by
    intro name hname other hother owner table hnamed hne hkept htable
    obtain ⟨_, table', hnamed', htable', _⟩ := plain_target schema name (hplain name hname)
    rw [hnamed, Option.some.injEq, Prod.mk.injEq] at hnamed'
    have hkept' := (kept_iff schema view name (hplain name hname) owner table hnamed).mpr hne
    refine hread.told name hname other hother hkept' hkept ?_
    rw [htable', htable, hnamed'.2]
  refine ⟨?_, ?_, ?_, ?_⟩
  · intro name hname owner hnamed
    by_contra hne
    have hother : (owner, view) ≠ (schema, view) := fun heq => hne (Prod.mk.inj heq).1
    exact (hentry name hname owner view hnamed hother).1 rfl
  · intro name hname owner table hnamed hne
    obtain ⟨_, other, hother, hkept, htable, hpath⟩ := hentry name hname owner table hnamed
      fun heq => hne (Prod.mk.inj heq).2
    obtain ⟨owner', _, hnamed', _, _, _, _, hlong⟩ := plain_target schema name (hplain name hname)
    rw [hnamed, Option.some.injEq, Prod.mk.injEq] at hnamed'
    rw [← htold name hname other hother owner table hnamed hne hkept htable] at hpath htable
    by_contra hlength
    have hlonger := hlong (by omega)
    have hlengths := congrArg List.length hpath
    simp only [pathOfRelation, DbPath.relationPath, htable, hnamed'.1, List.length_append,
      List.length_cons] at hlengths
    omega
  · intro name hname other hother owner owner' table hnamed hnamed' hne
    obtain ⟨_, _, hnamed₁, htable, _⟩ := plain_target schema other (hplain other hother)
    rw [hnamed', Option.some.injEq, Prod.mk.injEq] at hnamed₁
    have hkept := (kept_iff schema view other (hplain other hother) owner' table hnamed').mpr hne
    refine values_of_rendered name other (hplain name hname) (hplain other hother)
      (htold name hname other hother owner table hnamed hne hkept ?_)
    rw [htable, hnamed₁.2]
  · intro name hname owner table hnamed hne
    obtain ⟨_, _, hnamed', htable, _, hcomponent, _⟩ := plain_target schema name (hplain name hname)
    rw [hnamed, Option.some.injEq, Prod.mk.injEq] at hnamed'
    have hfound := hread.found name hname
      ((kept_iff schema view name (hplain name hname) owner table hnamed).mpr hne)
    rw [← hnamed'.2] at htable hcomponent
    rw [htable] at hfound
    exact (found_iff schema view table hschema hview hcomponent).mp hfound

theorem readBack_of_unambiguous (hnames : Unambiguous schema view names) :
    ReadBack schema view names := by
  /- Such a name is read back as what it means. -/
  have htarget : ∀ name ∈ names, Kept schema view name → ∃ owner table,
      named schema name = some (owner, table) ∧ table ≠ view ∧ Component table ∧
        target schema (rendered name) = (owner, table) := by
    intro name hname hkept
    obtain ⟨owner, table, hnamed, htable, _, hcomponent, howner, _⟩ :=
      plain_target schema name (hplain name hname)
    have hne := (kept_iff schema view name (hplain name hname) owner table hnamed).mp hkept
    exact ⟨owner, table, hnamed, hne, hcomponent,
      Prod.ext (howner (hnames.short name hname owner table hnamed hne)) htable⟩
  have hkept : ∀ relation ∈ referenced schema view names, ∃ name ∈ names,
      Kept schema view name ∧ named schema name = some relation ∧
        target schema (rendered name) = relation := by
    intro relation hrelation
    obtain ⟨⟨name, hname, hnamed⟩, hne⟩ := (mem_referenced schema view names relation).mp hrelation
    obtain ⟨owner, table⟩ := relation
    have hview' : table ≠ view := by
      intro heq
      subst heq
      exact hne (by rw [hnames.own name hname owner hnamed])
    have hkept := (kept_iff schema view name (hplain name hname) owner table hnamed).mpr hview'
    obtain ⟨_, _, hnamed', _, _, heq⟩ := htarget name hname hkept
    rw [hnamed] at hnamed'
    exact ⟨name, hname, hkept, hnamed, heq.trans (Option.some.inj hnamed').symm⟩
  have hlast : ∀ name ∈ names, ∀ other ∈ names, Kept schema view name →
      Kept schema view other → lastSegment (target schema (rendered name)).2 =
        lastSegment (target schema (rendered other)).2 → values name = values other := by
    intro name hname other hother hkept₁ hkept₂ heq
    obtain ⟨owner₁, table₁, hnamed₁, hne₁, hcomponent₁, htarget₁⟩ := htarget name hname hkept₁
    obtain ⟨owner₂, table₂, hnamed₂, _, hcomponent₂, htarget₂⟩ := htarget other hother hkept₂
    rw [htarget₁, htarget₂, lastSegment_eq_self _ hcomponent₁.2,
      lastSegment_eq_self _ hcomponent₂.2] at heq
    have heq : table₁ = table₂ := heq
    subst heq
    exact hnames.alike name hname other hother owner₁ owner₂ table₁ hnamed₁ hnamed₂ hne₁
  have hrendered (name other : ObjectName) (hname : name ∈ names) (hother : other ∈ names)
      (heq : values name = values other) : rendered name = rendered other := by
    rw [rendered_plain name (hplain name hname), heq, rendered_plain other (hplain other hother)]
  refine ⟨?_, ?_, ?_, ?_, ?_⟩
  · intro relation hrelation
    obtain ⟨name, hname, hkept, _, heq⟩ := hkept relation hrelation
    exact ⟨name, hname, hkept, by rw [heq]⟩
  · intro name hname hkept
    obtain ⟨owner, table, hnamed, hne, _, heq⟩ := htarget name hname hkept
    refine ⟨(owner, table), (mem_referenced schema view names _).mpr ⟨⟨name, hname, hnamed⟩, ?_⟩,
      by rw [heq]⟩
    exact fun hself => hne (Prod.mk.inj hself).2
  · intro relation hrelation other hother heq
    obtain ⟨name, hname, hkept₁, _, htarget₁⟩ := hkept relation hrelation
    obtain ⟨name', hname', hkept₂, _, htarget₂⟩ := hkept other hother
    have hsame := lastSegment_of_target schema (rendered name) (rendered name')
      (by rw [htarget₁, htarget₂, heq])
    rw [← htarget₁, ← htarget₂, hrendered name name' hname hname'
      (hlast name hname name' hname' hkept₁ hkept₂ hsame)]
  · intro name hname other hother hkept₁ hkept₂ heq
    exact hrendered name other hname hother
      (hlast name hname other hother hkept₁ hkept₂ heq)
  · intro name hname hkept
    obtain ⟨owner, table, hnamed, hne, hcomponent, heq⟩ := htarget name hname hkept
    rw [heq]
    exact (found_iff schema view table hschema hview hcomponent).mpr
      (hnames.inPath name hname owner table hnamed hne)

end

/-! ### Views whose names stand in no path -/

/-- A database with one view, whose definition has the names. -/
def onlyView (schema view definition : Str) (names : List ObjectName) : Database Unit Unit where
  dialect := .Generic
  listSchemas _ := .error (.NotFound [])
  listRelations _ _ := .error (.NotFound [])
  listColumns _ _ _ := .error (.NotFound [])
  listIndexes _ _ _ := .error (.NotFound [])
  listConstraints _ _ _ := .error (.NotFound [])
  relationInfo _ owner relation :=
    if (owner, relation) = (schema, view) then .ok ⟨view, .View, none, none, none⟩
    else .error (.NotFound relation)
  viewDefinition _ _ _ := .ok definition
  insert _ _ _ _ _ := (.ok 0, ())
  viewDependencies := viewDependencies (fun _ _ => some names) .Generic

theorem onlyView_viewOf (schema view definition : Str) (names : List ObjectName)
    (hdefinition : trim definition ≠ []) :
    ViewOf (fun _ _ => some names) (onlyView schema view definition names) () schema view
      names where
  info := ⟨⟨view, .View, none, none, none⟩, if_pos rfl, rfl⟩
  definition := ⟨definition, rfl, fun h => absurd h hdefinition, fun _ => rfl⟩
  dependencies _ := rfl

/- Every listing of this database looks up a relation first, and it has one only. -/
theorem segments_of_listing (schema view definition path : Str) (names : List ObjectName)
    (entries : List FileInfo)
    (h : lsDb (onlyView schema view definition names) () path = .ok entries) :
    Segment schema ∧ Segment view := by
  have honly (owner relation : Str) (info : RelationInfo)
      (hinfo : (onlyView schema view definition names).relationInfo () owner relation = .ok info)
      (howner : Segment owner) (hrelation : Segment relation) :
      Segment schema ∧ Segment view := by
    by_cases heq : (owner, relation) = (schema, view)
    · obtain ⟨rfl, rfl⟩ := Prod.mk.inj heq
      exact ⟨howner, hrelation⟩
    · have herror : (onlyView schema view definition names).relationInfo () owner relation =
          .error (.NotFound relation) := if_neg heq
      rw [herror] at hinfo
      cases hinfo
  obtain ⟨⟨owner?, relation?, kind, query⟩, hparse, h⟩ := Checked.bind_eq_ok_iff.mp h
  have hnames := parse_names _ _ hparse
  cases kind with
  | Root => cases h
  | Schema =>
    obtain ⟨_, _, h⟩ := Checked.bind_eq_ok_iff.mp h
    obtain ⟨_, hschemas, _⟩ := Checked.bind_eq_ok_iff.mp h
    cases hschemas
  | Relation =>
    obtain ⟨owner, relation, rfl, rfl, howner, hrelation⟩ := hnames
    obtain ⟨_, ⟨⟩, h⟩ := Checked.bind_eq_ok_iff.mp h
    obtain ⟨info, hinfo, _⟩ := Checked.bind_eq_ok_iff.mp h
    exact honly owner relation info hinfo howner hrelation
  | Facet facet item =>
    obtain ⟨owner, relation, rfl, rfl, howner, hrelation⟩ := hnames
    cases item with
    | some item => cases h
    | none =>
      obtain ⟨_, ⟨⟩, h⟩ := Checked.bind_eq_ok_iff.mp h
      obtain ⟨info, hinfo, _⟩ := Checked.bind_eq_ok_iff.mp h
      exact honly owner relation info hinfo howner hrelation
  | RelationData format => cases h
  | ViewDefinition => cases h

/-- Where the names of the view stand in a path, its dependencies are told if and only if they
are read back as what they mean, for plain names if and only if they are unambiguous. A view
whose names stand in no path has no such listing. -/
theorem dependencies_told_iff (schema view : Str) (names : List ObjectName) :
    (Segment schema → Segment view →
      ∀ (visitRelations : Dialect → Str → Option (List ObjectName)) (db : Database σ Stream)
        (s : σ), ViewOf visitRelations db s schema view names →
        (DependenciesTold db s schema view names ↔ ReadBack schema view names)) ∧
    (Segment schema → Segment view → (∀ name ∈ names, PlainName name) →
      (ReadBack schema view names ↔ Unambiguous schema view names)) ∧
    (¬ (Segment schema ∧ Segment view) →
      ∃ (visitRelations : Dialect → Str → Option (List ObjectName)) (db : Database Unit Unit),
        ViewOf visitRelations db () schema view names ∧
          ¬ DependenciesTold db () schema view names) := by
  refine ⟨fun hschema hview visitRelations db s h => ⟨?_, ?_⟩,
    fun hschema hview hplain => ⟨?_, ?_⟩, fun hnot => ?_⟩
  · exact readBack_of_told visitRelations db s schema view names hschema hview h
  · exact told_of_readBack visitRelations db s schema view names hschema hview h
  · exact unambiguous_of_readBack schema view names hschema hview hplain
  · exact readBack_of_unambiguous schema view names hschema hview hplain
  · refine ⟨_, onlyView schema view "SELECT 1".toList names,
      onlyView_viewOf schema view _ names (by decide), fun htold => ?_⟩
    obtain ⟨entries, hls, _⟩ := htold
    exact hnot (segments_of_listing schema view _ _ names entries hls)

def usersAndLog : List ObjectName :=
  [[⟨"users".toList, "users".toList⟩],
    [⟨"audit".toList, "audit".toList⟩, ⟨"log".toList, "\"log\"".toList⟩]]

theorem usersAndLog_unambiguous : Unambiguous "main".toList "recent".toList usersAndLog := by
  have hnamed : ∀ name ∈ usersAndLog, ∀ relation, named "main".toList name = some relation →
      name.length ≤ 2 ∧ PathName relation.2 ∧ relation.2 ≠ "recent".toList ∧
        ∀ other ∈ usersAndLog, (named "main".toList other).map Prod.snd = some relation.2 →
          values name = values other := by
    intro name hname relation hrelation
    rw [usersAndLog, List.mem_cons, List.mem_singleton] at hname
    rcases hname with rfl | rfl
    · obtain rfl := Option.some.inj hrelation
      decide
    · obtain rfl := Option.some.inj hrelation
      decide
  refine ⟨?_, ?_, ?_, ?_⟩
  · intro name hname owner hown
    exact absurd rfl (hnamed name hname _ hown).2.2.1
  · intro name hname owner table h _
    exact (hnamed name hname _ h).1
  · intro name hname other hother owner owner' table h h' _
    exact (hnamed name hname _ h).2.2.2 other hother (by rw [h']; rfl)
  · intro name hname owner table h _
    exact (hnamed name hname _ h).2.1

theorem usersAndLog_told :
    DependenciesTold (onlyView "main".toList "recent".toList
        "SELECT id FROM users JOIN audit.\"log\" USING (id)".toList usersAndLog) ()
      "main".toList "recent".toList usersAndLog := by
  have hmain : PathName "main".toList := by decide
  have hrecent : PathName "recent".toList := by decide
  have h := @dependencies_told_iff Unit Unit "main".toList "recent".toList usersAndLog
  have hread := (h.2.1 hmain.segment hrecent.segment (by decide)).mpr usersAndLog_unambiguous
  exact (h.1 hmain.segment hrecent.segment _ _ ()
    (onlyView_viewOf _ _ _ _ (by decide))).mpr hread

def usersTwice : List ObjectName :=
  [[⟨"a".toList, "a".toList⟩, ⟨"users".toList, "users".toList⟩],
    [⟨"b".toList, "b".toList⟩, ⟨"users".toList, "users".toList⟩]]

/-- Tables of one name in two schemas get two entries of one name. -/
theorem users_of_two_schemas_are_confused :
    ¬ ∀ (visitRelations : Dialect → Str → Option (List ObjectName)) (db : Database Unit Unit)
        (s : Unit) (schema view : Str) (names : List ObjectName),
      ViewOf visitRelations db s schema view names →
      DependenciesTold db s schema view names := by
  intro h
  obtain ⟨entries, hls, _, hnodup, _⟩ := h _ _ () "main".toList "recent".toList usersTwice
    (onlyView_viewOf "main".toList "recent".toList
      "SELECT id FROM a.users UNION SELECT id FROM b.users".toList usersTwice (by decide))
  have hentries : lsDb (onlyView "main".toList "recent".toList
        "SELECT id FROM a.users UNION SELECT id FROM b.users".toList usersTwice) ()
      (DbPath.facetPath "main".toList "recent".toList .DependsOn) =
      .ok [dependsOnEntry "main".toList "recent".toList "a.users".toList,
        dependsOnEntry "main".toList "recent".toList "b.users".toList] := by decide
  rw [hentries] at hls
  rw [← Except.ok.inj hls] at hnodup
  exact absurd hnodup (by decide)

end FsspecDb.Fs
