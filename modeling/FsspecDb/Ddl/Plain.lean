import FsspecDb.Ddl.Agreement
import FsspecDb.Ddl.Written

/-!
# Ordinary relation paths

On `/schema/relation` with names that no splitter treats specially, the splitters see
the same two components, and all depends on the dot in the relation's name.
-/

namespace FsspecDb.Ddl
open Text

/-- A name without separators, whitespace and control characters. -/
def PlainName (name : Str) : Prop :=
  name ≠ [] ∧ ∀ c ∈ name, c ≠ '/' ∧ c ≠ '?' ∧ c ≠ ':' ∧ c ≠ '#' ∧ isWhitespace c = false ∧
    0x20 < c.toNat

instance (name : Str) : Decidable (PlainName name) := inferInstanceAs (Decidable (_ ∧ _))

/-- A relation under such names. -/
structure PlainRelation where
  schema : Str
  relation : Str
  plainSchema : PlainName schema
  plainRelation : PlainName relation

def PlainRelation.path (target : PlainRelation) : Str :=
  DbPath.relationPath target.schema target.relation

/-- The call of a method on ordinary paths. -/
inductive PlainCall where
  | mkdir (target : PlainRelation) (arrowSchema : List PaField)
  | rmFile (target : PlainRelation)
  | mv (source target : PlainRelation)

def PlainCall.call : PlainCall → DdlCall
  | .mkdir target arrowSchema => .mkdir target.path arrowSchema
  | .rmFile target => .rmFile target.path
  | .mv source target => .mv source.path target.path

/-- What stands behind the last dot of the name is the extension of a format, if there is a dot. -/
def DotIsFormat (relation : Str) : Prop :=
  ∀ name extension, rsplitOnce relation '.' = some (name, extension) →
    ∃ format : DataFormat, extension = format.extension

/-- The condition on the text: only `rm_file` takes a name with a dot. -/
def PlainCall.Agrees : PlainCall → Prop
  | .rmFile target => DotIsFormat target.relation
  | _ => True

section
variable (schema relation : Str) (hschema : PlainName schema) (hrelation : PlainName relation)
include hschema hrelation

/- The names are written as they are. -/
theorem plain_written :
    DbPath.relationPath schema relation = writtenPath none [schema, relation] none ∧
      ∀ part ∈ [schema, relation], PathName part ∧ UrlText part := by
  refine ⟨by simp [DbPath.relationPath, writtenPath, writtenFront, slashed], fun part hpart => ?_⟩
  have hplain : PlainName part := by
    rcases List.mem_pair.mp hpart with rfl | rfl
    · exact hschema
    · exact hrelation
  obtain ⟨hne, hchars⟩ := hplain
  have hcode (c : Char) (hc : c ∈ part) (d : Char) (hd : d.toNat ≤ 0x20) : c ≠ d := by
    intro heq
    subst heq
    have hlow := (hchars c hc).2.2.2.2.2
    omega
  refine ⟨⟨hne, fun h => (hchars _ h).1 rfl, fun h => (hchars _ h).2.1 rfl, ?_⟩, fun c hc => ?_⟩
  · rw [EndsBlank, List.getLast?_eq_some_getLast hne, Option.any_some,
      (hchars _ (List.getLast_mem hne)).2.2.2.2.1]
    decide
  · refine ⟨(hchars c hc).2.2.2.1, ?_⟩
    simp [isBreak, hcode c hc '\t' (by decide), hcode c hc '\r' (by decide),
      hcode c hc '\n' (by decide)]

theorem plain_ddlComponents :
    ddlComponents (DbPath.relationPath schema relation) = [schema, relation] := by
  obtain ⟨hwritten, hparts⟩ := plain_written schema relation hschema hrelation
  have hsegments : ∀ part ∈ [schema, relation], Segment part := fun part hpart =>
    (hparts part hpart).1.segment
  have hcomponents : ∀ part ∈ [schema, relation], Component part := fun part hpart =>
    (hsegments part hpart).1
  have hquery := splitOnce_eq_none _ '?' [] (question_not_mem_slashed _ hsegments)
  rw [hwritten, writtenPath, writtenFront, Option.elim_none, Option.elim_none, List.nil_append,
    List.append_nil, ddlComponents, hquery]
  simp only [Option.elim_none, if_neg (strip_slashed_ne_nil _ hcomponents (by simp)),
    splitOn_strip_slashed _ hcomponents (by simp)]

theorem plain_components (parser : PathParser) :
    parser.components (DbPath.relationPath schema relation) = [schema, relation] := by
  obtain ⟨hwritten, hparts⟩ := plain_written schema relation hschema hrelation
  rw [hwritten]
  exact components_written [schema, relation] (by simp) (fun part hpart => (hparts part hpart).1)
    (fun part hpart => (hparts part hpart).2) none (by simp) none (by simp) (by simp) parser

/-- No splitter but `_ddl_path` cuts at a dot without the extension of a format behind it. -/
theorem plain_sameTarget_iff (parser : PathParser) :
    SameTarget parser (DbPath.relationPath schema relation) ↔ DotIsFormat relation := by
  unfold DotIsFormat
  unfold SameTarget
  rw [plain_ddlComponents schema relation hschema hrelation,
    plain_components schema relation hschema hrelation]
  constructor
  · intro hgiven name extension hsplit
    obtain ⟨schema', last, hparts, hmatch⟩ := hgiven
    obtain ⟨rfl, rfl⟩ : schema = schema' ∧ relation = last := by simpa using hparts
    rw [hsplit] at hmatch
    obtain ⟨format, heq⟩ := hmatch
    obtain ⟨_, rfl⟩ : schema = schema ∧ relation = name ++ '.' :: format.extension := by
      simpa using heq
    have hname := (rsplitOnce_eq_some_iff _ _ _ _).mp hsplit
    exact ⟨format, by simpa using hname.1.symm⟩
  · intro h
    refine ⟨schema, relation, rfl, ?_⟩
    cases hsplit : rsplitOnce relation '.' with
    | none => rfl
    | some p =>
      obtain ⟨format, heq⟩ := h p.1 p.2 hsplit
      exact ⟨format, by rw [← heq, ← ((rsplitOnce_eq_some_iff _ _ _ _).mp hsplit).1]⟩

theorem plain_sameNames (parser : PathParser) :
    SameNames parser (DbPath.relationPath schema relation) :=
  ⟨schema, relation, plain_ddlComponents schema relation hschema hrelation,
    .inl (plain_components schema relation hschema hrelation parser)⟩

end

theorem splittersAgree_plain_iff (parser : PathParser) (plain : PlainCall) :
    SplittersAgree parser plain.call ↔ plain.Agrees := by
  cases plain with
  | mkdir target arrowSchema =>
    exact iff_true_intro (plain_sameNames _ _ target.plainSchema target.plainRelation parser)
  | rmFile target => exact plain_sameTarget_iff _ _ target.plainSchema target.plainRelation parser
  | mv source target =>
    exact iff_true_intro ⟨plain_sameNames _ _ source.plainSchema source.plainRelation parser,
      plain_sameNames _ _ target.plainSchema target.plainRelation parser⟩

/-- A statement that `mkdir`, `rm_file` or `mv` builds acts on what its paths name, by
the filesystem's own parser, if and only if the splitters agree on them; on ordinary paths, if and
only if a dot in the name that `rm_file` is given has the extension of a format behind it. -/
theorem ddl_acts_on_named_iff (fs : DdlFs) (parser : PathParser) (call : DdlCall) (sql : Str)
    (hissued : fs.issue call = .ok sql) :
    ((∃ statement, readStatement fs.quote sql = some statement ∧
      ActsOnNamed parser call statement) ↔ SplittersAgree parser call) ∧
    ∀ plain : PlainCall, plain.call = call →
      ((∃ statement, readStatement fs.quote sql = some statement ∧
        ActsOnNamed parser call statement) ↔ plain.Agrees) := by
  have hacts := acts_on_named_iff fs parser call sql hissued
  refine ⟨hacts, fun plain hplain => hacts.trans ?_⟩
  rw [← hplain]
  exact splittersAgree_plain_iff parser plain

theorem data_path_deletes_rows :
    ∃ statement, readStatement sqliteFs.quote "DELETE FROM \"main\".\"users\"".toList =
        some statement ∧
      ActsOnNamed .native (.rmFile "/main/users.csv".toList) statement :=
  (ddl_acts_on_named_iff sqliteFs .native (.rmFile "/main/users.csv".toList) _ (by decide)).1.mpr
    ⟨"main".toList, "users.csv".toList, by decide, .Csv, by decide⟩

/-- The table `my.table` is to be dropped: another one, `my`, is emptied. -/
theorem dotted_path_empties_other_table :
    sqliteFs.rmFile "/main/my.table".toList = .ok "DELETE FROM \"main\".\"my\"".toList ∧
    readStatement sqliteFs.quote "DELETE FROM \"main\".\"my\"".toList =
      some (.DeleteFrom "main".toList "my".toList) ∧
    PathParser.native.named "/main/my.table".toList =
      some ⟨"main".toList, "my.table".toList, .relation⟩ ∧
    (PathParser.python fun _ => none).named "/main/my.table".toList =
      some ⟨"main".toList, "my.table".toList, .relation⟩ ∧
    ¬ ActsOnNamed .native (.rmFile "/main/my.table".toList)
      (.DeleteFrom "main".toList "my".toList) := by
  refine ⟨by decide, by decide, by decide, by decide, fun h => ?_⟩
  exact absurd h (by decide : PathParser.native.named "/main/my.table".toList ≠ _)

end FsspecDb.Ddl
