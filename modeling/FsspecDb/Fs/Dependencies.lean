import FsspecDb.Fs.DependsOn
import Mathlib.Data.List.Dedup

/-!
# When a view's dependencies are told

The listing says of every name what was read back from the joined text. So what is read back
has to be what the name means, and the entries have to be told apart by their last parts.
-/

namespace FsspecDb.Fs
open Text Sql

variable {σ Stream : Type}

/-- The name leads to an entry of the listing. -/
def Kept (schema view : Str) (name : ObjectName) : Prop :=
  rendered name ≠ [] ∧ (target schema (rendered name)).2 ≠ view

/-- What is read back from the joined names is what the names mean, and the last parts of
different joined names differ and can be looked up. -/
structure ReadBack (schema view : Str) (names : List ObjectName) : Prop where
  complete : ∀ relation ∈ referenced schema view names, ∃ name ∈ names, Kept schema view name ∧
    pathOfRelation (target schema (rendered name)) = pathOfRelation relation
  sound : ∀ name ∈ names, Kept schema view name → ∃ relation ∈ referenced schema view names,
    pathOfRelation relation = pathOfRelation (target schema (rendered name))
  apart : ∀ relation ∈ referenced schema view names, ∀ other ∈ referenced schema view names,
    pathOfRelation relation = pathOfRelation other → relation = other
  told : ∀ name ∈ names, ∀ other ∈ names, Kept schema view name → Kept schema view other →
    lastSegment (target schema (rendered name)).2 =
      lastSegment (target schema (rendered other)).2 → rendered name = rendered other
  found : ∀ name ∈ names, Kept schema view name →
    Found schema view (target schema (rendered name)).2

/-! ### Entries and names -/

section
variable (schema view : Str) (names : List ObjectName)

theorem mem_listed_iff (dependency : Str) :
    dependency ∈ listed schema view names ↔
      ∃ name ∈ names, Kept schema view name ∧ rendered name = dependency := by
  rw [mem_listed]
  constructor
  · intro h
    obtain ⟨⟨hne, name, hname, rfl⟩, hview⟩ := h
    exact ⟨name, hname, ⟨hne, hview⟩, rfl⟩
  · intro h
    obtain ⟨name, hname, ⟨hne, hview⟩, rfl⟩ := h
    exact ⟨⟨hne, name, hname, rfl⟩, hview⟩

theorem mem_referenced (relation : Str × Str) :
    relation ∈ referenced schema view names ↔
      (∃ name ∈ names, named schema name = some relation) ∧ relation ≠ (schema, view) := by
  rw [referenced, List.mem_filter, List.mem_dedup, List.mem_filterMap]
  simp

theorem nodup_referenced : (referenced schema view names).Nodup :=
  (List.nodup_dedup _).filter _

/- The last parts of the listed names are distinct, so everything made of them is. -/
theorem nodup_map_listed {α : Type} (f : Str → α)
    (htold : ∀ name ∈ names, ∀ other ∈ names, Kept schema view name → Kept schema view other →
      lastSegment (target schema (rendered name)).2 =
        lastSegment (target schema (rendered other)).2 → rendered name = rendered other)
    (hf : ∀ d d', f d = f d' →
      lastSegment (target schema d).2 = lastSegment (target schema d').2) :
    ((listed schema view names).map f).Nodup := by
  refine (nodup_listed schema view names).map_on fun d hd d' hd' heq => ?_
  obtain ⟨name, hname, hkept, rfl⟩ := (mem_listed_iff schema view names d).mp hd
  obtain ⟨other, hother, hkept', rfl⟩ := (mem_listed_iff schema view names d').mp hd'
  exact htold name hname other hother hkept hkept' (hf _ _ heq)

theorem lastSegment_of_target (d d' : Str)
    (h : pathOfRelation (target schema d) = pathOfRelation (target schema d')) :
    lastSegment (target schema d).2 = lastSegment (target schema d').2 := by
  rw [← lastSegment_pathOfRelation, h, lastSegment_pathOfRelation]

end

/-! ### The listing of one view -/

section
variable (visitRelations : Dialect → Str → Option (List ObjectName)) (db : Database σ Stream)
  (s : σ) (schema view : Str) (names : List ObjectName) (hschema : Segment schema)
  (hview : Segment view) (h : ViewOf visitRelations db s schema view names)
include hschema hview h

theorem lsDb_dependsOn :
    lsDb db s (DbPath.facetPath schema view .DependsOn) =
      .ok ((listed schema view names).map (dependsOnEntry schema view)) := by
  rw [← viewDependencies_eq visitRelations db s schema view names h, lsDb,
    parse_facetPath schema view hschema hview .DependsOn]
  rfl

theorem readBack_of_told (htold : DependenciesTold db s schema view names) :
    ReadBack schema view names := by
  obtain ⟨entries, hls, hperm, hnodup, hinfo⟩ := htold
  rw [lsDb_dependsOn visitRelations db s schema view names hschema hview h] at hls
  obtain rfl := Except.ok.inj hls
  have hfacet := viewDependencies_eq visitRelations db s schema view names h
  have hentry (d : Str) (hd : d ∈ listed schema view names) :=
    (infoDb_entry_iff db s schema view d _ hschema hview hfacet).mp
      (hinfo _ (List.mem_map_of_mem hd))
  rw [List.map_map] at hnodup hperm
  have htold : ∀ name ∈ names, ∀ other ∈ names, Kept schema view name → Kept schema view other →
      lastSegment (target schema (rendered name)).2 =
        lastSegment (target schema (rendered other)).2 → rendered name = rendered other := by
    intro name hname other hother hkept hkept' hlast
    have hd := (mem_listed_iff schema view names _).mpr ⟨name, hname, hkept, rfl⟩
    have hd' := (mem_listed_iff schema view names _).mpr ⟨other, hother, hkept', rfl⟩
    -- both are found by the same last part
    have hfirst := (hentry _ hd).2
    rw [hlast, (hentry _ hd').2] at hfirst
    exact List.inj_on_of_nodup_map hnodup hd hd'
      (congrArg FileInfo.name (Option.some.inj hfirst).symm)
  have htargets := nodup_map_listed schema view names
    (fun d => some (pathOfRelation (target schema d))) htold fun d d' heq =>
      lastSegment_of_target schema d d' (Option.some.inj heq)
  have hrelations := hperm.nodup_iff.mp htargets
  refine ⟨fun relation hrelation => ?_, fun name hname hkept => ?_,
    fun relation hrelation other hother heq => ?_, htold, fun name hname hkept => ?_⟩
  · obtain ⟨d, hd, heq⟩ := List.mem_map.mp (hperm.mem_iff.mpr (List.mem_map_of_mem hrelation))
    obtain ⟨name, hname, hkept, rfl⟩ := (mem_listed_iff schema view names d).mp hd
    exact ⟨name, hname, hkept, Option.some.inj heq⟩
  · have hd := (mem_listed_iff schema view names _).mpr ⟨name, hname, hkept, rfl⟩
    obtain ⟨relation, hrelation, heq⟩ :=
      List.mem_map.mp (hperm.mem_iff.mp (List.mem_map_of_mem hd))
    exact ⟨relation, hrelation, Option.some.inj heq⟩
  · exact List.inj_on_of_nodup_map hrelations hrelation hother (congrArg some heq)
  · exact (hentry _ ((mem_listed_iff schema view names _).mpr ⟨name, hname, hkept, rfl⟩)).1

theorem told_of_readBack (hread : ReadBack schema view names) :
    DependenciesTold db s schema view names := by
  have hfacet := viewDependencies_eq visitRelations db s schema view names h
  refine ⟨_, lsDb_dependsOn visitRelations db s schema view names hschema hview h, ?_, ?_, ?_⟩
  · have htargets := nodup_map_listed schema view names
      (fun d => some (pathOfRelation (target schema d))) hread.told fun d d' heq =>
        lastSegment_of_target schema d d' (Option.some.inj heq)
    have hrelations : ((referenced schema view names).map fun relation =>
        some (pathOfRelation relation)).Nodup :=
      (nodup_referenced schema view names).map_on fun relation hrelation other hother heq =>
        hread.apart relation hrelation other hother (Option.some.inj heq)
    rw [List.map_map]
    refine (List.perm_ext_iff_of_nodup htargets hrelations).mpr fun path => ?_
    constructor
    · intro hpath
      obtain ⟨d, hd, rfl⟩ := List.mem_map.mp hpath
      obtain ⟨name, hname, hkept, rfl⟩ := (mem_listed_iff schema view names d).mp hd
      obtain ⟨relation, hrelation, heq⟩ := hread.sound name hname hkept
      rw [← heq]
      exact List.mem_map_of_mem hrelation
    · intro hpath
      obtain ⟨relation, hrelation, rfl⟩ := List.mem_map.mp hpath
      obtain ⟨name, hname, hkept, heq⟩ := hread.complete relation hrelation
      rw [← heq]
      exact List.mem_map_of_mem ((mem_listed_iff schema view names _).mpr ⟨name, hname, hkept, rfl⟩)
  · rw [List.map_map]
    refine nodup_map_listed schema view names _ hread.told fun d d' heq => ?_
    rw [← lastSegment_entry schema view, ← lastSegment_entry schema view]
    exact congrArg lastSegment heq
  · intro entry hentry
    obtain ⟨d, hd, rfl⟩ := List.mem_map.mp hentry
    obtain ⟨name, hname, hkept, rfl⟩ := (mem_listed_iff schema view names d).mp hd
    refine (infoDb_entry_iff db s schema view _ _ hschema hview hfacet).mpr
      ⟨hread.found name hname hkept, ?_⟩
    rw [List.find?_map]
    have hlast : ((listed schema view names).map
        fun d => lastSegment (target schema d).2).Nodup :=
      nodup_map_listed schema view names _ hread.told fun _ _ heq => heq
    rw [Keyed.find_key _ (fun d => lastSegment (target schema d).2) hlast _ hd _ fun d _ => ?_]
    · rfl
    · simp only [Function.comp_apply, lastSegment_entry]

end

end FsspecDb.Fs
