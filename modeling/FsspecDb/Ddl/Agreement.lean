import FsspecDb.Ddl.Mixin
import FsspecDb.Lib.Checked

/-!
# DDL against the filesystem's own parser

A statement acts on what `_ddl_path` makes of the path. It is what the path names
exactly if the parser has the same components, up to the extension.
-/

namespace FsspecDb.Ddl
open Text Checked

/-- A call whose statement the mixin builds itself. -/
inductive DdlCall where
  | mkdir (path : Str) (arrowSchema : List PaField)
  | rmFile (path : Str)
  | mv (path1 path2 : Str)
  deriving Repr, DecidableEq

def DdlFs.issue (fs : DdlFs) : DdlCall → Except PyError Str
  | .mkdir path arrowSchema => fs.mkdir path none (some arrowSchema)
  | .rmFile path => fs.rmFile path
  | .mv path1 path2 => fs.mv path1 path2

/-- The parser assigns `schema` and `relation` to the path. -/
def Assigns (parser : PathParser) (path schema relation : Str) : Prop :=
  ∃ kind, parser.named path = some ⟨schema, relation, kind⟩

/-- The statement acts on what its path names: it empties the relation of a data path,
drops the relation of a relation path, creates or renames the assigned one. -/
def ActsOnNamed (parser : PathParser) (call : DdlCall) (statement : DdlStatement) : Prop :=
  match call, statement with
  | .rmFile path, .DeleteFrom schema relation =>
    parser.named path = some ⟨schema, relation, .data⟩
  | .rmFile path, .Drop _ schema relation =>
    parser.named path = some ⟨schema, relation, .relation⟩
  | .mkdir path _, .CreateTable schema relation => Assigns parser path schema relation
  | .mv path1 path2, .Rename schema relation targetSchema target =>
    Assigns parser path1 schema relation ∧ Assigns parser path2 targetSchema target
  | _, _ => False

/-- The parser has the components `schema` and `last` of `_ddl_path`; where `last` has an
extension, the parser's is one of the five formats, after the same name. -/
def SameTarget (parser : PathParser) (path : Str) : Prop :=
  ∃ schema last, ddlComponents path = [schema, last] ∧
    match rsplitOnce last '.' with
    | none => parser.components path = [schema, last]
    | some (relation, _) =>
      ∃ format : DataFormat, parser.components path = [schema, relation ++ '.' :: format.extension]

/-- The parser's components start with those of `_ddl_path`; the second may have a format
behind it, or a facet below it. -/
def SameNames (parser : PathParser) (path : Str) : Prop :=
  ∃ schema last, ddlComponents path = [schema, last] ∧
    (parser.components path = [schema, last] ∨
      (∃ format : DataFormat,
        parser.components path = [schema, last ++ '.' :: format.extension]) ∨
      ∃ tail, parser.components path = schema :: last :: tail ∧ FacetTail tail)

/-- The splitters agree on the paths of a call. -/
def SplittersAgree (parser : PathParser) : DdlCall → Prop
  | .mkdir path _ => SameNames parser path
  | .rmFile path => SameTarget parser path
  | .mv path1 path2 => SameNames parser path1 ∧ SameNames parser path2

/-! ### What the methods issue -/

theorem ddlPath_relation (path schema relation : Str)
    (h : ddlPath path = .ok (schema, some relation, none)) :
    ddlComponents path = [schema, relation] ∧ '.' ∉ relation := by
  unfold ddlPath at h
  split at h
  · simp at h
  · next schema' last hparts =>
    cases hsplit : rsplitOnce last '.' with
    | none =>
      simp only [hsplit, Except.ok.injEq, Prod.mk.injEq, Option.some.injEq, and_true] at h
      obtain ⟨rfl, rfl⟩ := h
      exact ⟨hparts, (rsplitOnce_eq_none_iff last '.').mp hsplit⟩
    | some p => simp [hsplit] at h
  · simp at h

theorem ddlPath_extension (path schema relation extension : Str)
    (h : ddlPath path = .ok (schema, some relation, some extension)) :
    ∃ last, ddlComponents path = [schema, last] ∧
      rsplitOnce last '.' = some (relation, extension) := by
  unfold ddlPath at h
  split at h
  · simp at h
  · next schema' last hparts =>
    cases hsplit : rsplitOnce last '.' with
    | none => simp [hsplit] at h
    | some p =>
      simp only [hsplit, Except.ok.injEq, Prod.mk.injEq, Option.some.injEq] at h
      obtain ⟨rfl, rfl, rfl⟩ := h
      exact ⟨last, hparts, hsplit⟩
  · simp at h

variable (fs : DdlFs)

theorem mkdir_issued (path : Str) (arrowSchema : List PaField) (sql : Str)
    (h : fs.mkdir path none (some arrowSchema) = .ok sql) :
    ∃ schema relation, ddlPath path = .ok (schema, some relation, none) ∧
      readStatement fs.quote sql = some (.CreateTable schema relation) := by
  obtain ⟨_, _, h⟩ := bind_eq_ok_iff.mp h
  obtain ⟨⟨schema, relation, extension⟩, hpath, h⟩ := bind_eq_ok_iff.mp h
  cases relation with
  | none => simp at h
  | some relation =>
    cases extension with
    | some extension => simp at h
    | none =>
      obtain ⟨columns, _, h⟩ := bind_eq_ok_iff.mp h
      refine ⟨schema, relation, hpath, ?_⟩
      rw [← Except.ok.inj h, List.append_assoc (_ ++ " (".toList)]
      exact fs.read_createTable schema relation _

theorem isWordChar_toUpper (c : Char) (h : Sql.isWordChar c = true) :
    Sql.isWordChar c.toUpper = true := by
  have hall : ∀ n < 123, Sql.isWordChar (Char.ofNat n) = true →
      Sql.isWordChar (Char.ofNat n).toUpper = true := by decide
  rw [← Char.ofNat_toNat c] at h ⊢
  exact hall c.toNat (Sql.toNat_lt_of_isWordChar c (by rwa [Char.ofNat_toNat] at h)) h

theorem rmFile_issued (path sql : Str) (h : fs.rmFile path = .ok sql) :
    ∃ schema relation,
      (∃ extension, ddlPath path = .ok (schema, some relation, some extension) ∧
        readStatement fs.quote sql = some (.DeleteFrom schema relation)) ∨
      (∃ kind, ddlPath path = .ok (schema, some relation, none) ∧
        readStatement fs.quote sql = some (.Drop kind schema relation)) := by
  obtain ⟨_, _, h⟩ := bind_eq_ok_iff.mp h
  obtain ⟨⟨schema, relation, extension⟩, hpath, h⟩ := bind_eq_ok_iff.mp h
  cases relation with
  | none => simp at h
  | some relation =>
    refine ⟨schema, relation, ?_⟩
    cases extension with
    | some extension =>
      rw [← Except.ok.inj h]
      exact .inl ⟨extension, hpath, fs.read_deleteFrom schema relation⟩
    | none =>
      obtain ⟨kind, hkind, h⟩ := bind_eq_ok_iff.mp h
      rw [← Except.ok.inj h]
      refine .inr ⟨_, hpath, fs.read_drop _ schema relation fun c hc => ?_⟩
      obtain ⟨d, hd, rfl⟩ := List.mem_map.mp hc
      apply isWordChar_toUpper
      cases kind with
      | none =>
        exact List.all_eq_true.mp (by decide : "table".toList.all Sql.isWordChar = true) d hd
      | some kind => exact fs.info_word path kind hkind d hd

theorem mv_issued (path1 path2 sql : Str) (h : fs.mv path1 path2 = .ok sql) :
    ∃ schema source target, ddlPath path1 = .ok (schema, some source, none) ∧
      ddlPath path2 = .ok (schema, some target, none) ∧
      readStatement fs.quote sql = some (.Rename schema source schema target) := by
  obtain ⟨_, _, h⟩ := bind_eq_ok_iff.mp h
  obtain ⟨⟨sourceSchema, source, sourceExtension⟩, hsource, h⟩ := bind_eq_ok_iff.mp h
  obtain ⟨⟨targetSchema, target, targetExtension⟩, htarget, h⟩ := bind_eq_ok_iff.mp h
  split at h
  · next hfirst hsecond =>
    obtain ⟨rfl, rfl, rfl⟩ : _ ∧ _ ∧ _ := by simpa using hfirst
    obtain ⟨rfl, rfl, rfl⟩ : _ ∧ _ ∧ _ := by simpa using hsecond
    split at h
    · simp at h
    · next hschema =>
      obtain rfl := not_not.mp hschema
      refine ⟨_, _, _, hsource, htarget, ?_⟩
      split at h
      · rw [← Except.ok.inj h]
        exact fs.read_renameTable _ _ _ _
      · rw [← Except.ok.inj h]
        exact fs.read_alterTable _ _ _
  · simp at h

/-! ### Agreement -/

theorem assigns_iff (parser : PathParser) (path schema relation : Str)
    (h : ddlPath path = .ok (schema, some relation, none)) :
    Assigns parser path schema relation ↔ SameNames parser path := by
  obtain ⟨hparts, hdot⟩ := ddlPath_relation path schema relation h
  have hformat := splitRelationFormat_of_no_dot relation hdot
  unfold Assigns SameNames
  rw [named_eq_namedOf]
  constructor
  · intro hgiven
    obtain ⟨kind, hkind⟩ := hgiven
    refine ⟨schema, relation, hparts, ?_⟩
    cases kind with
    | relation => exact .inl ((namedOf_relation_iff _ _ _).mp hkind).1
    | data => exact .inr (.inl ((namedOf_data_iff _ _ _).mp hkind))
    | other => exact .inr (.inr ((namedOf_other_iff _ _ _).mp hkind))
  · intro hall
    obtain ⟨schema', last, hparts', hcases⟩ := hall
    rw [hparts] at hparts'
    obtain ⟨rfl, rfl⟩ : schema = schema' ∧ relation = last := by simpa using hparts'
    rcases hcases with hrelation | hdata | hother
    · exact ⟨.relation, (namedOf_relation_iff _ _ _).mpr ⟨hrelation, hformat⟩⟩
    · exact ⟨.data, (namedOf_data_iff _ _ _).mpr hdata⟩
    · exact ⟨.other, (namedOf_other_iff _ _ _).mpr hother⟩

theorem drop_agrees_iff (parser : PathParser) (path schema relation : Str)
    (h : ddlPath path = .ok (schema, some relation, none)) :
    parser.named path = some ⟨schema, relation, .relation⟩ ↔ SameTarget parser path := by
  obtain ⟨hparts, hdot⟩ := ddlPath_relation path schema relation h
  have hformat := splitRelationFormat_of_no_dot relation hdot
  have hsplit := (rsplitOnce_eq_none_iff relation '.').mpr hdot
  rw [named_eq_namedOf, namedOf_relation_iff, SameTarget, hparts]
  constructor
  · intro hgiven
    obtain ⟨heq, _⟩ := hgiven
    exact ⟨schema, relation, rfl, by rw [hsplit]; exact heq⟩
  · intro hall
    obtain ⟨schema', last, heq, hmatch⟩ := hall
    obtain ⟨rfl, rfl⟩ : schema = schema' ∧ relation = last := by simpa using heq
    rw [hsplit] at hmatch
    exact ⟨hmatch, hformat⟩

theorem delete_agrees_iff (parser : PathParser) (path schema relation extension : Str)
    (h : ddlPath path = .ok (schema, some relation, some extension)) :
    parser.named path = some ⟨schema, relation, .data⟩ ↔ SameTarget parser path := by
  obtain ⟨last, hparts, hsplit⟩ := ddlPath_extension path schema relation extension h
  rw [named_eq_namedOf, namedOf_data_iff, SameTarget, hparts]
  constructor
  · intro hformat
    exact ⟨schema, last, rfl, by rw [hsplit]; exact hformat⟩
  · intro hgiven
    obtain ⟨schema', last', heq, hmatch⟩ := hgiven
    obtain ⟨rfl, rfl⟩ : schema = schema' ∧ last = last' := by simpa using heq
    rw [hsplit] at hmatch
    exact hmatch

/- The statement of a call and what it acts on, by the components that the splitters see. -/
theorem acts_on_named_iff (parser : PathParser) (call : DdlCall) (sql : Str)
    (hissued : fs.issue call = .ok sql) :
    (∃ statement, readStatement fs.quote sql = some statement ∧
      ActsOnNamed parser call statement) ↔ SplittersAgree parser call := by
  cases call with
  | mkdir path arrowSchema =>
    obtain ⟨schema, relation, hpath, hread⟩ := mkdir_issued fs path arrowSchema sql hissued
    rw [hread]
    simp only [Option.some.injEq, exists_eq_left', ActsOnNamed, SplittersAgree]
    exact assigns_iff parser path schema relation hpath
  | rmFile path =>
    obtain ⟨schema, relation, ⟨extension, hpath, hread⟩ | ⟨kind, hpath, hread⟩⟩ :=
      rmFile_issued fs path sql hissued
    · rw [hread]
      simp only [Option.some.injEq, exists_eq_left', ActsOnNamed, SplittersAgree]
      exact delete_agrees_iff parser path schema relation extension hpath
    · rw [hread]
      simp only [Option.some.injEq, exists_eq_left', ActsOnNamed, SplittersAgree]
      exact drop_agrees_iff parser path schema relation hpath
  | mv path1 path2 =>
    obtain ⟨schema, source, target, hsource, htarget, hread⟩ := mv_issued fs path1 path2 sql hissued
    rw [hread]
    simp only [Option.some.injEq, exists_eq_left', ActsOnNamed, SplittersAgree]
    rw [assigns_iff parser path1 schema source hsource,
      assigns_iff parser path2 schema target htarget]

/-- A SQLite filesystem with DDL allowed, all of whose relations are tables. -/
def sqliteFs : DdlFs where
  allowDdl := true
  db := none
  protocol := "db+sqlite".toList
  info _ := .ok (some "table".toList)
  info_word _ kind h := by
    obtain rfl := Option.some.inj (Except.ok.inj h)
    exact List.all_eq_true.mp (by decide)

end FsspecDb.Ddl
