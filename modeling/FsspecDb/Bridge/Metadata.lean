import FsspecDb.Bridge.FileInfo

/-!
# Relations, columns, indexes and constraints as dictionaries

Each kind of entry has its texts (fs.rs) and its fields (types.rs). The texts of an index or
a constraint are read back as its fields where no column name has a comma in it.
-/

namespace FsspecDb.Bridge
open Text

/-! ### The texts read back -/

theorem extraValue_bool (key : Str) (b : Bool)
    (hkey : key = "nullable".toList ∨ key = "primary_key".toList ∨ key = "size_known".toList ∨
      key = "unique".toList) : extraValue key (Fs.boolStr b) = .bool b := by
  rw [extraValue, if_pos hkey]
  cases b <;> rfl

theorem natStr_digits (n : Nat) : Fs.natStr n = Nat.toDigits 10 n := by
  simp [Fs.natStr]

theorem extraValue_u64 (key : Str) (n : UInt64)
    (hkey : key = "row_count".toList ∨ key = "size_bytes".toList) :
    extraValue key (Fs.natStr n.toNat) = .int n.toNat := by
  have hparse : Sql.parseU64 (Fs.natStr n.toNat) = some n := by
    rw [natStr_digits, Sql.parseU64_digits _ n.toNat_lt, UInt64.ofNat_toNat]
  rcases hkey with rfl | rfl <;> simp [extraValue, hparse]

theorem extraValue_ordinal (n : UInt32) :
    extraValue "ordinal".toList (Fs.natStr n.toNat) = .int n.toNat := by
  have hparse : parseU32 (Fs.natStr n.toNat) = some n := by
    obtain ⟨hplus, hdigits⟩ := Sql.toDigits_unsigned n.toNat
    rw [natStr_digits, parseU32, if_neg hplus]
    dsimp only
    rw [if_neg hdigits, Nat.ofDigitChars_ten_toDigits, if_pos n.toNat_lt, UInt32.ofNat_toNat]
  simp [extraValue, hparse]

/- Names that come back from a joined text. -/
def CommaFree (names : List Str) : Prop := ∀ name ∈ names, name ≠ [] ∧ ',' ∉ name

instance (names : List Str) : Decidable (CommaFree names) :=
  inferInstanceAs (Decidable (∀ name ∈ names, name ≠ [] ∧ ',' ∉ name))

theorem splitNames_join_iff (names : List Str) :
    splitNames (join [','] names) = names ↔ CommaFree names := by
  constructor
  · intro hsplit name hname
    rw [← hsplit] at hname
    obtain ⟨hpart, hne⟩ := List.mem_filter.mp hname
    exact ⟨by simpa using hne, not_mem_of_mem_splitOn _ name ',' hpart⟩
  · intro hfree
    by_cases hempty : names = []
    · rw [hempty]
      rfl
    · have hsplit : (join [','] names).splitOn ',' = names :=
        List.splitOn_intercalate ',' (fun name hname => (hfree name hname).2) hempty
      rw [splitNames, hsplit]
      apply List.filter_eq_self.mpr
      intro name hname
      simpa using (hfree name hname).1

/-! ### The four kinds of metadata -/

/- What the dictionary of an entry should tell. -/
def relationFields (relation : RelationInfo) : List Field :=
  [("kind".toList, some (.str relation.kind.asStr)),
    ("row_count".toList, relation.rowCount.map fun n => .int n.toNat),
    ("size_bytes".toList, relation.sizeBytes.map fun n => .int n.toNat),
    ("comment".toList, relation.comment.map .str)]

def columnFields (column : ColumnInfo) : List Field :=
  [("kind".toList, some (.str "column".toList)),
    ("data_type".toList, some (.str column.dataType)),
    ("nullable".toList, some (.bool column.nullable)),
    ("ordinal".toList, some (.int column.ordinal.toNat)),
    ("primary_key".toList, some (.bool column.primaryKey)),
    ("default".toList, column.default.map .str),
    ("comment".toList, column.comment.map .str)]

def indexFields (index : IndexInfo) : List Field :=
  [("kind".toList, some (.str "index".toList)),
    ("columns".toList, some (.list index.columns)),
    ("unique".toList, some (.bool index.unique)),
    ("method".toList, index.method.map .str)]

def constraintFields (constraint : ConstraintInfo) : List Field :=
  [("kind".toList, some (.str constraint.kind.asStr)),
    ("columns".toList, some (.list constraint.columns)),
    ("references".toList, constraint.references.map .str),
    ("expr".toList, constraint.expr.map .str)]

section
variable (schema relation : Str)

/- Texts that the dictionary takes over as they are. -/
theorem extraValue_text (key value : Str) (hkey : key ∈ ["kind".toList, "comment".toList,
    "data_type".toList, "default".toList, "method".toList, "references".toList, "expr".toList]) :
    extraValue key value = .str value := by
  simp only [List.mem_cons, List.not_mem_nil, or_false] at hkey
  rcases hkey with rfl | rfl | rfl | rfl | rfl | rfl | rfl <;> rfl

theorem relationInfo_holds (r : RelationInfo) :
    Holds (fileInfoToDict (Fs.relationInfo schema r)) (relationFields r) := by
  let texts : List (Str × Option Str) :=
    [("kind".toList, some r.kind.asStr),
      ("row_count".toList, r.rowCount.map fun n => Fs.natStr n.toNat),
      ("size_bytes".toList, r.sizeBytes.map fun n => Fs.natStr n.toNat),
      ("comment".toList, r.comment)]
  have hread : readBack texts = relationFields r := by
    have hcount := fun n => extraValue_u64 "row_count".toList n (.inl rfl)
    have hsize := fun n => extraValue_u64 "size_bytes".toList n (.inr rfl)
    have hkind := fun text => extraValue_text "kind".toList text (by decide)
    have hcomment := funext fun text => extraValue_text "comment".toList text (by decide)
    simp only [readBack, texts, relationFields, List.map_cons, List.map_nil, Option.map_map,
      Function.comp_def, hcount, hsize, hcomment, hkind, Option.map_some]
  exact (withTexts_holds_iff (.directory _) texts _ rfl ["kind".toList, "row_count".toList,
    "size_bytes".toList, "comment".toList] (by decide) (by decide) rfl rfl).mpr hread

theorem columnInfo_holds (column : ColumnInfo) :
    Holds (fileInfoToDict (Fs.columnInfo schema relation column)) (columnFields column) := by
  let texts : List (Str × Option Str) :=
    [("kind".toList, some "column".toList), ("data_type".toList, some column.dataType),
      ("nullable".toList, some (Fs.boolStr column.nullable)),
      ("ordinal".toList, some (Fs.natStr column.ordinal.toNat)),
      ("primary_key".toList, some (Fs.boolStr column.primaryKey)),
      ("default".toList, column.default), ("comment".toList, column.comment)]
  have hread : readBack texts = columnFields column := by
    have hkind := fun text => extraValue_text "kind".toList text (by decide)
    have htype := fun text => extraValue_text "data_type".toList text (by decide)
    have hdefault := funext fun text => extraValue_text "default".toList text (by decide)
    have hcomment := funext fun text => extraValue_text "comment".toList text (by decide)
    have hnullable := extraValue_bool "nullable".toList column.nullable (by decide)
    have hprimary := extraValue_bool "primary_key".toList column.primaryKey (by decide)
    simp only [readBack, texts, columnFields, List.map_cons, List.map_nil, Option.map_some,
      hkind, htype, hdefault, hcomment, hnullable, hprimary, extraValue_ordinal]
  exact (withTexts_holds_iff (.file _ 0) texts _ rfl ["kind".toList, "data_type".toList,
    "nullable".toList, "ordinal".toList, "primary_key".toList, "default".toList,
    "comment".toList] (by decide) (by decide) rfl rfl).mpr hread

theorem extraValue_columns (value : Str) :
    extraValue "columns".toList value = .list (splitNames value) := rfl

theorem indexInfo_holds_iff (index : IndexInfo) :
    Holds (fileInfoToDict (Fs.indexInfo schema relation index)) (indexFields index) ↔
      CommaFree index.columns := by
  let texts : List (Str × Option Str) :=
    [("kind".toList, some "index".toList), ("columns".toList, some (join [','] index.columns)),
      ("unique".toList, some (Fs.boolStr index.unique)), ("method".toList, index.method)]
  have hread : readBack texts = indexFields index ↔ CommaFree index.columns := by
    have hkind := fun text => extraValue_text "kind".toList text (by decide)
    have hmethod := funext fun text => extraValue_text "method".toList text (by decide)
    have hunique := extraValue_bool "unique".toList index.unique (by decide)
    rw [← splitNames_join_iff]
    simp only [readBack, texts, indexFields, List.map_cons, List.map_nil, Option.map_some,
      hkind, hmethod, hunique, extraValue_columns, List.cons.injEq, Prod.mk.injEq,
      Option.some.injEq, PyItem.list.injEq, true_and, and_true]
  rw [← hread]
  exact withTexts_holds_iff (.file _ 0) texts _ rfl ["kind".toList, "columns".toList,
    "unique".toList, "method".toList] (by decide) (by decide) rfl rfl

theorem constraintInfo_holds_iff (constraint : ConstraintInfo) :
    Holds (fileInfoToDict (Fs.constraintInfo schema relation constraint))
      (constraintFields constraint) ↔ CommaFree constraint.columns := by
  let texts : List (Str × Option Str) :=
    [("kind".toList, some constraint.kind.asStr),
      ("columns".toList, some (join [','] constraint.columns)),
      ("references".toList, constraint.references), ("expr".toList, constraint.expr)]
  have hread : readBack texts = constraintFields constraint ↔ CommaFree constraint.columns := by
    have hkind := fun text => extraValue_text "kind".toList text (by decide)
    have hreferences := funext fun text => extraValue_text "references".toList text (by decide)
    have hexpr := funext fun text => extraValue_text "expr".toList text (by decide)
    rw [← splitNames_join_iff]
    simp only [readBack, texts, constraintFields, List.map_cons, List.map_nil, Option.map_some,
      hkind, hreferences, hexpr, extraValue_columns, List.cons.injEq, Prod.mk.injEq,
      Option.some.injEq, PyItem.list.injEq, true_and, and_true]
  rw [← hread]
  exact withTexts_holds_iff (.file _ 0) texts _ rfl ["kind".toList, "columns".toList,
    "references".toList, "expr".toList] (by decide) (by decide) rfl rfl

/-! ### Different entries, different dictionaries -/

theorem Same.name {info info' : FileInfo}
    (h : Same (fileInfoToDict info) (fileInfoToDict info')) : info.name = info'.name := by
  have hname := h "name".toList
  rw [fileInfoToDict_name, fileInfoToDict_name] at hname
  exact PyItem.str.inj (Option.some.inj hname)

theorem facetItemPath_injective (facet : DbFacet) (item item' : Str)
    (h : DbPath.facetItemPath schema relation facet item =
      DbPath.facetItemPath schema relation facet item') : item = item' := by
  unfold DbPath.facetItemPath at h
  exact (List.cons.inj (List.append_cancel_left h)).2

end

theorem relationKind_asStr_injective (kind kind' : RelationKind) (h : kind.asStr = kind'.asStr) :
    kind = kind' := by
  cases kind <;> cases kind' <;> first | rfl | exact absurd h (by decide)

theorem constraintKind_asStr_injective (kind kind' : ConstraintKind)
    (h : kind.asStr = kind'.asStr) : kind = kind' := by
  cases kind <;> cases kind' <;> first | rfl | exact absurd h (by decide)

theorem map_str_injective : Function.Injective (Option.map PyItem.str) :=
  Option.map_injective fun _ _ h => PyItem.str.inj h

/- The fields and the name make up the whole entry. -/
theorem relationFields_injective (r r' : RelationInfo) (hname : r.name = r'.name)
    (hfields : relationFields r = relationFields r') : r = r' := by
  obtain ⟨name, kind, rowCount, sizeBytes, comment⟩ := r
  obtain ⟨name', kind', rowCount', sizeBytes', comment'⟩ := r'
  have hint : Function.Injective (Option.map fun n : UInt64 => PyItem.int n.toNat) :=
    Option.map_injective fun _ _ h => UInt64.toNat_inj.mp (PyItem.int.inj h)
  simp only [relationFields, List.cons.injEq, Prod.mk.injEq, true_and, and_true,
    Option.some.injEq, PyItem.str.injEq, hint.eq_iff, map_str_injective.eq_iff] at hname hfields
  obtain ⟨hkind, rfl, rfl, rfl⟩ := hfields
  rw [hname, relationKind_asStr_injective kind kind' hkind]

theorem columnFields_injective (column column' : ColumnInfo) (hname : column.name = column'.name)
    (hfields : columnFields column = columnFields column') : column = column' := by
  obtain ⟨name, dataType, nullable, default, ordinal, primaryKey, comment⟩ := column
  obtain ⟨name', dataType', nullable', default', ordinal', primaryKey', comment'⟩ := column'
  simp only [columnFields, List.cons.injEq, Prod.mk.injEq, true_and, and_true,
    Option.some.injEq, PyItem.str.injEq, PyItem.bool.injEq, PyItem.int.injEq, UInt32.toNat_inj,
    map_str_injective.eq_iff] at hname hfields
  obtain ⟨rfl, rfl, rfl, rfl, rfl, rfl⟩ := hfields
  rw [hname]

theorem indexFields_injective (index index' : IndexInfo) (hname : index.name = index'.name)
    (hfields : indexFields index = indexFields index') : index = index' := by
  obtain ⟨name, columns, unique, method⟩ := index
  obtain ⟨name', columns', unique', method'⟩ := index'
  simp only [indexFields, List.cons.injEq, Prod.mk.injEq, true_and, and_true,
    Option.some.injEq, PyItem.list.injEq, PyItem.bool.injEq,
    map_str_injective.eq_iff] at hname hfields
  obtain ⟨rfl, rfl, rfl⟩ := hfields
  rw [hname]

theorem constraintFields_injective (constraint constraint' : ConstraintInfo)
    (hname : constraint.name = constraint'.name)
    (hfields : constraintFields constraint = constraintFields constraint') :
    constraint = constraint' := by
  obtain ⟨name, kind, columns, references, expr⟩ := constraint
  obtain ⟨name', kind', columns', references', expr'⟩ := constraint'
  simp only [constraintFields, List.cons.injEq, Prod.mk.injEq, true_and, and_true,
    Option.some.injEq, PyItem.str.injEq, PyItem.list.injEq,
    map_str_injective.eq_iff] at hname hfields
  obtain ⟨hkind, rfl, rfl, rfl⟩ := hfields
  rw [hname, constraintKind_asStr_injective kind kind' hkind]

/- The path carries the name, the dictionary the rest. -/
theorem metadata_transport (schema relation : Str) :
    (∀ r, Holds (fileInfoToDict (Fs.relationInfo schema r)) (relationFields r)) ∧
    (∀ column, Holds (fileInfoToDict (Fs.columnInfo schema relation column))
      (columnFields column)) ∧
    (∀ index, Holds (fileInfoToDict (Fs.indexInfo schema relation index)) (indexFields index) ↔
      CommaFree index.columns) ∧
    (∀ constraint, Holds (fileInfoToDict (Fs.constraintInfo schema relation constraint))
      (constraintFields constraint) ↔ CommaFree constraint.columns) ∧
    (∀ r r', Same (fileInfoToDict (Fs.relationInfo schema r))
      (fileInfoToDict (Fs.relationInfo schema r')) → r = r') ∧
    (∀ column column', Same (fileInfoToDict (Fs.columnInfo schema relation column))
      (fileInfoToDict (Fs.columnInfo schema relation column')) → column = column') ∧
    (∀ index index', CommaFree index.columns → CommaFree index'.columns →
      Same (fileInfoToDict (Fs.indexInfo schema relation index))
        (fileInfoToDict (Fs.indexInfo schema relation index')) → index = index') ∧
    (∀ constraint constraint', CommaFree constraint.columns → CommaFree constraint'.columns →
      Same (fileInfoToDict (Fs.constraintInfo schema relation constraint))
        (fileInfoToDict (Fs.constraintInfo schema relation constraint')) →
      constraint = constraint') := by
  refine ⟨relationInfo_holds schema, columnInfo_holds schema relation,
    indexInfo_holds_iff schema relation, constraintInfo_holds_iff schema relation, ?_, ?_, ?_, ?_⟩
  · intro r r' h
    have hpath : DbPath.relationPath schema r.name = DbPath.relationPath schema r'.name := by
      simpa [Fs.relationInfo, FileInfo.directory] using h.name
    have hname : r.name = r'.name := (List.cons.inj (List.append_cancel_left hpath)).2
    exact relationFields_injective r r' hname
      ((relationInfo_holds schema r).unique (relationInfo_holds schema r') h rfl)
  · intro column column' h
    have hname := facetItemPath_injective schema relation .Columns column.name column'.name
      (by simpa [Fs.columnInfo, FileInfo.file] using h.name)
    exact columnFields_injective column column' hname ((columnInfo_holds schema relation
      column).unique (columnInfo_holds schema relation column') h rfl)
  · intro index index' hfree hfree' h
    have hname := facetItemPath_injective schema relation .Indexes index.name index'.name
      (by simpa [Fs.indexInfo, FileInfo.file] using h.name)
    exact indexFields_injective index index' hname (((indexInfo_holds_iff schema relation
      index).mpr hfree).unique ((indexInfo_holds_iff schema relation index').mpr hfree') h rfl)
  · intro constraint constraint' hfree hfree' h
    have hname := facetItemPath_injective schema relation .Constraints constraint.name
      constraint'.name (by simpa [Fs.constraintInfo, FileInfo.file] using h.name)
    exact constraintFields_injective constraint constraint' hname
      (((constraintInfo_holds_iff schema relation constraint).mpr hfree).unique
        ((constraintInfo_holds_iff schema relation constraint').mpr hfree') h rfl)

/- Names without a comma tell two indexes apart. -/
theorem metadata_transport_columns :
    Holds (fileInfoToDict (Fs.indexInfo "main".toList "t".toList
        ⟨"i".toList, ["a".toList, "b".toList], false, none⟩))
      (indexFields ⟨"i".toList, ["a".toList, "b".toList], false, none⟩) ∧
    ¬ Same (fileInfoToDict (Fs.indexInfo "main".toList "t".toList
        ⟨"i".toList, ["a".toList], false, none⟩))
      (fileInfoToDict (Fs.indexInfo "main".toList "t".toList
        ⟨"i".toList, ["a".toList, "b".toList], false, none⟩)) := by
  obtain ⟨_, _, hindex, _, _, _, hdistinct, _⟩ := metadata_transport "main".toList "t".toList
  refine ⟨(hindex _).mpr (by decide), fun hsame => ?_⟩
  have heq := hdistinct ⟨"i".toList, ["a".toList], false, none⟩
    ⟨"i".toList, ["a".toList, "b".toList], false, none⟩ (by decide) (by decide) hsame
  exact absurd (congrArg IndexInfo.columns heq) (by decide)

/- An index on the one column `a,b` tells the dictionary of an index on `a` and `b`. -/
theorem metadata_transport_comma :
    ¬ Holds (fileInfoToDict (Fs.indexInfo "main".toList "t".toList
        ⟨"i".toList, ["a,b".toList], false, none⟩))
      (indexFields ⟨"i".toList, ["a,b".toList], false, none⟩) ∧
    Same (fileInfoToDict (Fs.indexInfo "main".toList "t".toList
        ⟨"i".toList, ["a,b".toList], false, none⟩))
      (fileInfoToDict (Fs.indexInfo "main".toList "t".toList
        ⟨"i".toList, ["a".toList, "b".toList], false, none⟩)) := by
  refine ⟨?_, fun key => rfl⟩
  rw [indexInfo_holds_iff]
  decide

end FsspecDb.Bridge
