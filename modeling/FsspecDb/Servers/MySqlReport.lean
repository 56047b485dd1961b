import FsspecDb.Lib.Checked
import FsspecDb.Servers.MySqlKeys

/-!
# What MySQL's constraints are reported as

Each constraint is reported once, but with the columns of all constraints of its table that have
its name.
-/

namespace FsspecDb.Servers.MySql
open Text Bridge

variable (catalog : Catalog)

def keyOf (c : ServerConstraint) : Str × Str := (c.name, Constraints.constraintType c.kind)

/- What is reported of a constraint when the query gives the rows. -/
def toldConstraint (limit : Nat) (rows : List JoinedRow) (c : ServerConstraint) : ConstraintInfo :=
  constraintRow limit c.kind c.name (rows.filter fun row => rowKey row = keyOf c)

theorem constraintType_inj (kind kind' : ConstraintKind)
    (h : Constraints.constraintType kind = Constraints.constraintType kind') : kind = kind' := by
  have hkind := constraintKind_type kind
  rw [h, constraintKind_type, Except.ok.injEq] at hkind
  exact hkind.symm

theorem ofRelation_keys (schema relation : Str) :
    ((ofRelation catalog.constraints schema relation).map fun c => (c.name, c.kind)).Nodup := by
  have hnodup := catalog.keys_nodup.sublist
    ((List.filter_sublist (p := fun c => c.schema = schema ∧ c.table = relation)).map
      fun c : ServerConstraint => (c.schema, c.table, catalog.fold c.name, c.kind))
  refine List.Nodup.of_map (fun entry => (schema, relation, catalog.fold entry.1, entry.2)) ?_
  rw [List.map_map]
  convert hnodup using 1
  apply List.map_congr_left
  intro c hc
  obtain ⟨_, hschema, htable⟩ := (mem_ofRelation _ _ _ c).mp hc
  rw [Function.comp_apply, hschema, htable]

theorem keyOf_nodup (schema relation : Str) :
    ((ofRelation catalog.constraints schema relation).map keyOf).Nodup := by
  have hinj : Function.Injective fun entry : Str × ConstraintKind =>
      (entry.1, Constraints.constraintType entry.2) := by
    intro entry entry' h
    obtain ⟨hname, htype⟩ := Prod.mk.inj h
    exact Prod.ext hname (constraintType_inj _ _ htype)
  have hmap := (ofRelation_keys catalog schema relation).map hinj
  rwa [List.map_map] at hmap

section
variable {schema relation : Str} (rows : List JoinedRow)
  (hrows : rows.Perm (joined catalog schema relation)) (limit : Nat)
include hrows

/- The rows of a group are the rows of its constraint. -/
theorem filter_own (c : ServerConstraint)
    (hc : c ∈ ofRelation catalog.constraints schema relation) :
    (rows.filter fun row => rowKey row = keyOf c).Perm (rowsOf catalog c) := by
  rw [joined_eq] at hrows
  have hown := Grouping.filter_parts (ofRelation catalog.constraints schema relation)
    (rowsOf catalog) rowKey keyOf (keyOf_nodup catalog schema relation)
    (fun d _ row hrow => rowsOf_key catalog d row hrow) c hc
  rw [← hown]
  exact hrows.filter _

/-- Each constraint of the relation is reported once, and the query cannot fail. -/
theorem listConstraints_perm :
    ∃ report, listConstraints limit rows = .ok report ∧
      report.Perm ((ofRelation catalog.constraints schema relation).map
        (toldConstraint limit rows)) := by
  have hgroups := Grouping.groups_perm (ofRelation catalog.constraints schema relation)
    (rowsOf catalog) rowKey keyOf (keyOf_nodup catalog schema relation)
    (fun d _ row hrow => rowsOf_key catalog d row hrow) (fun d _ => rowsOf_ne catalog d) rows
    (by rwa [joined_eq] at hrows)
  have hparts : ((ofRelation catalog.constraints schema relation).map fun c =>
      (keyOf c, rows.filter fun row => rowKey row = keyOf c)).mapM (fun entry => do
        let kind ← constraintKind entry.1.2
        return constraintRow limit kind entry.1.1 entry.2) =
      .ok ((ofRelation catalog.constraints schema relation).map (toldConstraint limit rows)) := by
    rw [Checked.mapM_eq_ok_iff, List.forall₂_map_left_iff, List.forall₂_map_right_iff]
    apply List.forall₂_same.mpr
    intro c _
    exact Checked.bind_eq_ok_iff.mpr ⟨c.kind, constraintKind_type c.kind, rfl⟩
  obtain ⟨report, hreport, hzip⟩ := Checked.mapM_perm hgroups.symm hparts
  refine ⟨report, hreport, ?_⟩
  have hlength := (Checked.mapM_eq_ok_iff.mp hreport).length_eq
  have hsnd := hzip.map Prod.snd
  rw [List.map_snd_zip (by simp), List.map_snd_zip hlength.ge] at hsnd
  exact hsnd.symm

/-! ### Complete reports -/

/- The text of a key has the columns of all keys with its name. -/
theorem told_columns (c : ServerConstraint)
    (hc : c ∈ ofRelation catalog.constraints schema relation) :
    ∃ names, names.Perm ((usageOf catalog c).map (·.columnName)) ∧
      (toldConstraint limit rows c).columns = splitCsv (truncate limit (join [','] names)) := by
  refine ⟨ordered ordinalPosition columnName (rows.filter fun row => rowKey row = keyOf c), ?_, ?_⟩
  · rw [← rowsOf_columns]
    exact (ordered_perm _ _ _).trans ((filter_own catalog rows hrows c hc).filterMap columnName)
  · rw [toldConstraint, constraintRow, groupConcat_getD]

theorem told_own_iff (c : ServerConstraint)
    (hc : c ∈ ofRelation catalog.constraints schema relation) (hown : OwnName catalog c) :
    toldConstraint limit rows c = c.declared ↔ CommaFree c.columns ∧ Fits limit c.columns := by
  have hmem : c ∈ catalog.constraints := List.mem_of_mem_filter hc
  have hgroup := filter_own catalog rows hrows c hc
  rw [Fits, ← splitCsv_truncate_iff, toldConstraint, constraintRow, groupConcat_getD,
    ordered_own catalog c hmem hown _ hgroup, references_own catalog c hmem hown _ hgroup,
    expr_own catalog c hmem hown _ hgroup, ServerConstraint.declared]
  constructor
  · exact fun h => congrArg ConstraintInfo.columns h
  · intro h
    rw [h]

/- With the columns of a namesake a constraint would have more than it was told to have. -/
theorem own_of_told (hfits : ∀ c ∈ ofRelation catalog.constraints schema relation,
      Fits limit ((usageOf catalog c).map (·.columnName)))
    (htold : ∀ c ∈ ofRelation catalog.constraints schema relation,
      toldConstraint limit rows c = c.declared) :
    ∀ c ∈ ofRelation catalog.constraints schema relation,
      OwnName catalog c ∧ CommaFree c.columns := by
  have hfree (c) (hc : c ∈ ofRelation catalog.constraints schema relation) :
      CommaFree c.columns := by
    obtain ⟨names, _, hcolumns⟩ := told_columns catalog rows hrows limit c hc
    rw [htold c hc] at hcolumns
    rw [show c.columns = splitCsv _ from hcolumns]
    exact splitCsv_commaFree _
  have hcount (c) (hc : c ∈ ofRelation catalog.constraints schema relation) :
      (usageOf catalog c).length = c.columns.length := by
    obtain ⟨names, hperm, hcolumns⟩ := told_columns catalog rows hrows limit c hc
    have hnames : CommaFree names := fun name hname =>
      usageOf_commaFree catalog c hc hfree name (hperm.mem_iff.mp hname)
    have htext := (splitCsv_truncate_iff limit names).mpr
      ⟨hnames, (hfits c hc).perm hperm.symm⟩
    rw [htold c hc, htext] at hcolumns
    rw [show c.columns = names from hcolumns, hperm.length_eq, List.length_map]
  intro c hc
  refine ⟨?_, hfree c hc⟩
  intro d hd hschema htable hname
  by_contra hne
  obtain ⟨hmem, hschema', htable'⟩ := (mem_ofRelation _ _ _ c).mp hc
  have hd' : d ∈ ofRelation catalog.constraints schema relation :=
    (mem_ofRelation _ _ _ d).mpr ⟨hd, hschema.trans hschema', htable.trans htable'⟩
  have hc₂ := usageOf_length catalog c d hmem hd hne ⟨hschema.symm, hname.symm, htable.symm⟩
  have hd₂ := usageOf_length catalog d c hd hmem (Ne.symm hne) ⟨hschema, hname, htable⟩
  rw [hcount c hc] at hc₂
  rw [hcount d hd'] at hd₂
  -- neither has a column, and two checks have two names
  have hcheck : c.kind = .Check := (catalog.columns_nil c hmem).mp
    (List.length_eq_zero_iff.mp (by omega))
  have hcheck' : d.kind = .Check := (catalog.columns_nil d hd).mp
    (List.length_eq_zero_iff.mp (by omega))
  exact hne (catalog.checks_own d hd c hmem hcheck' hcheck hschema hname)

end

/- A key and a check of one name, in another case. -/
def namesakes : Catalog where
  fold := toAsciiLowercase
  constraints := [
    ⟨"app".toList, "users".toList, "PRIMARY".toList, .PrimaryKey, ["id".toList], none, none,
      by decide, by decide⟩,
    ⟨"app".toList, "users".toList, "k".toList, .Unique, ["email".toList], none, none,
      by decide, by decide⟩,
    ⟨"app".toList, "users".toList, "K".toList, .Check, [], none, some "(id > 0)".toList,
      by decide, by decide⟩]
  keys_nodup := by decide
  columns_nil := by decide
  checks_own := by
    intro c hc d hd hkind hkind' _ _
    simp only [List.mem_cons, List.not_mem_nil, or_false] at hc hd
    rcases hc with rfl | rfl | rfl
    · cases hkind
    · cases hkind
    · rcases hd with rfl | rfl | rfl
      · cases hkind'
      · cases hkind'
      · rfl

end FsspecDb.Servers.MySql
