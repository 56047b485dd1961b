import FsspecDb.Arrow
import FsspecDb.Ddl.Named
import FsspecDb.Sql.Predicate

/-!
# The DDL methods (spec.py, `DatabaseDdlMixin`)

Each method stands for the statement that it passes to `query`. What a statement
acts on is read back from its text.
-/

namespace FsspecDb.Ddl
open Text

/-- A pyarrow type: those the backends know, and two more that have a SQL type. -/
inductive PaType where
  | arrow (dataType : DataType)
  | float16
  | decimal (precision scale : Nat)
  deriving Repr, DecidableEq

/-- A field of a pyarrow schema; `typeText` is `str(field.type)`. -/
structure PaField where
  name : Str
  type : PaType
  typeText : Str
  nullable : Bool
  deriving Repr, DecidableEq

def arrowTypeToSql (field : PaField) : Except PyError Str :=
  match field.type with
  | .arrow .Boolean => .ok "BOOLEAN".toList
  | .arrow .Int8 | .arrow .Int16 | .arrow .Int32 | .arrow .Int64
  | .arrow .UInt8 | .arrow .UInt16 | .arrow .UInt32 | .arrow .UInt64 => .ok "BIGINT".toList
  | .float16 | .arrow .Float32 | .arrow .Float64 => .ok "DOUBLE".toList
  | .decimal precision scale =>
    .ok ("DECIMAL(".toList ++ Nat.toDigits 10 precision ++ ", ".toList ++ Nat.toDigits 10 scale ++
      [')'])
  | .arrow .Binary | .arrow .LargeBinary => .ok "BLOB".toList
  | .arrow .Date32 | .arrow .Date64 => .ok "DATE".toList
  | .arrow (.Timestamp _ _) => .ok "TIMESTAMP".toList
  | .arrow .Utf8 | .arrow .LargeUtf8 => .ok "VARCHAR".toList
  | _ => .error (.TypeError ("unsupported Arrow type for database DDL: ".toList ++ field.typeText))

/-- The filesystem, as far as the mixin looks at it. `db` is the dialect of `self.db`,
`info` the `kind` that `self.info` gives, which is a word. -/
structure DdlFs where
  allowDdl : Bool
  db : Option Str
  protocol : Str
  info : Str → Except PyError (Option Str)
  info_word : ∀ path kind, info path = .ok (some kind) → ∀ c ∈ kind, Sql.isWordChar c = true

namespace DdlFs

variable (fs : DdlFs)

def ddlDialect : Str :=
  match fs.db with
  | some dialect => dialect
  | none =>
    if fs.protocol = "db+postgres".toList ∨ fs.protocol = "db+postgresql".toList then
      "postgres".toList
    else if fs.protocol = "db+mysql".toList then "mysql".toList
    else "generic".toList

def quote : Char := if fs.ddlDialect = "mysql".toList then '\x60' else '"'

def quoteDdlIdentifier (name : Str) : Str :=
  fs.quote :: replace name fs.quote [fs.quote, fs.quote] ++ [fs.quote]

def qualified (schema relation : Str) : Str :=
  fs.quoteDdlIdentifier schema ++ '.' :: fs.quoteDdlIdentifier relation

def requireDdl : Except PyError Unit :=
  if fs.allowDdl then .ok ()
  else .error (.PermissionError
    "database DDL is disabled; construct the filesystem with allow_ddl=True".toList)

def columnDefinition (field : PaField) : Except PyError Str :=
  (arrowTypeToSql field).map fun sqlType =>
    fs.quoteDdlIdentifier field.name ++ ' ' :: sqlType ++
      if field.nullable then [] else " NOT NULL".toList

def mkdir (path : Str) (sql : Option Str) (arrowSchema : Option (List PaField)) :
    Except PyError Str := do
  fs.requireDdl
  match ← ddlPath path with
  | (schema, some relation, none) =>
    match sql, arrowSchema with
    | some sql, _ => .ok sql
    | none, none =>
      .error (.ValueError "mkdir requires schema=pyarrow.Schema or sql=CREATE TABLE ...".toList)
    | none, some arrowSchema =>
      let columns ← arrowSchema.mapM fs.columnDefinition
      .ok ("CREATE TABLE ".toList ++ fs.qualified schema relation ++ " (".toList ++
        join ", ".toList columns ++ [')'])
  | _ => .error (.ValueError "mkdir requires a /schema/relation path".toList)

/- The body of `rm_file`, where `info` is what `self.info(path)` gives for its kind. -/
def rmFileOf (info : Except PyError (Option Str)) (path : Str) : Except PyError Str := do
  fs.requireDdl
  match ← ddlPath path with
  | (_, none, _) => .error (.ValueError "database removal requires a relation path".toList)
  | (schema, some relation, some _) => .ok ("DELETE FROM ".toList ++ fs.qualified schema relation)
  | (schema, some relation, none) =>
    let kind ← info
    .ok ("DROP ".toList ++ (kind.getD "table".toList).map Char.toUpper ++ ' ' ::
      fs.qualified schema relation)

def rmFile (path : Str) : Except PyError Str := fs.rmFileOf (fs.info path) path

def mv (path1 path2 : Str) : Except PyError Str := do
  fs.requireDdl
  match ← ddlPath path1, ← ddlPath path2 with
  | (sourceSchema, some source, none), (targetSchema, some target, none) =>
    if sourceSchema ≠ targetSchema then
      .error (.NotImplementedError "cross-schema relation moves are not supported".toList)
    else if fs.ddlDialect = "mysql".toList then
      .ok ("RENAME TABLE ".toList ++ fs.qualified sourceSchema source ++ " TO ".toList ++
        fs.qualified targetSchema target)
    else
      .ok ("ALTER TABLE ".toList ++ fs.qualified sourceSchema source ++ " RENAME TO ".toList ++
        fs.quoteDdlIdentifier target)
  | _, _ => .error (.ValueError "database rename requires relation paths".toList)

end DdlFs

/-! ### Reading a statement -/

inductive DdlStatement where
  | CreateTable (schema relation : Str)
  | DeleteFrom (schema relation : Str)
  | Drop (kind schema relation : Str)
  | Rename (schema relation targetSchema target : Str)
  deriving Repr, DecidableEq

def afterWord (word text : Str) : Option Str :=
  if word <+: text then some (text.drop word.length) else none

def readIdentifier (q : Char) (text : Str) : Option (Str × Str) :=
  (afterWord [q] text).bind (Quote.readQuoted q)

def readQualified (q : Char) (text : Str) : Option ((Str × Str) × Str) := do
  let (schema, text) ← readIdentifier q text
  let (relation, text) ← readIdentifier q (← afterWord ['.'] text)
  some ((schema, relation), text)

/-- The statement's verb, and after it the names between quotes `q`. -/
def readStatement (q : Char) (text : Str) : Option DdlStatement :=
  if let some text := afterWord "CREATE TABLE ".toList text then do
    let ((schema, relation), text) ← readQualified q text
    let _ ← afterWord " (".toList text
    some (.CreateTable schema relation)
  else if let some text := afterWord "DELETE FROM ".toList text then do
    let ((schema, relation), text) ← readQualified q text
    if text = [] then some (.DeleteFrom schema relation) else none
  else if let some text := afterWord "DROP ".toList text then do
    let ((schema, relation), rest) ← readQualified q (← afterWord [' ']
      (text.dropWhile Sql.isWordChar))
    if rest = [] then some (.Drop (text.takeWhile Sql.isWordChar) schema relation) else none
  else if let some text := afterWord "RENAME TABLE ".toList text then do
    let ((schema, relation), text) ← readQualified q text
    let ((targetSchema, target), text) ← readQualified q (← afterWord " TO ".toList text)
    if text = [] then some (.Rename schema relation targetSchema target) else none
  else if let some text := afterWord "ALTER TABLE ".toList text then do
    let ((schema, relation), text) ← readQualified q text
    let (target, text) ← readIdentifier q (← afterWord " RENAME TO ".toList text)
    if text = [] then some (.Rename schema relation schema target) else none
  else none

theorem afterWord_append (word text : Str) : afterWord word (word ++ text) = some text := by
  rw [afterWord, if_pos (List.prefix_append word text), List.drop_left]

theorem afterWord_head_ne (word text : Str) (hword : word ≠ []) (h : word.head? ≠ text.head?) :
    afterWord word text = none := by
  rw [afterWord, if_neg]
  intro hgiven
  obtain ⟨rest, rfl⟩ := hgiven
  exact h (List.head?_append_of_ne_nil word hword).symm

namespace DdlFs

variable (fs : DdlFs)

theorem quote_cases : fs.quote = '"' ∨ fs.quote = '\x60' := by
  unfold quote
  split
  · exact .inr rfl
  · exact .inl rfl

theorem quoteDdlIdentifier_eq (name : Str) :
    fs.quoteDdlIdentifier name = [fs.quote] ++ (Quote.double fs.quote name ++ [fs.quote]) := by
  rw [quoteDdlIdentifier, Sql.replace_doubled]
  rfl

theorem readIdentifier_quoted (name rest : Str) (hrest : rest.head? ≠ some fs.quote) :
    readIdentifier fs.quote (fs.quoteDdlIdentifier name ++ rest) = some (name, rest) := by
  rw [readIdentifier, quoteDdlIdentifier_eq, List.append_assoc, afterWord_append, Option.bind_some,
    List.append_assoc]
  exact Quote.readQuoted_double fs.quote name rest hrest

theorem readQualified_qualified (schema relation rest : Str)
    (hrest : rest.head? ≠ some fs.quote) :
    readQualified fs.quote (fs.qualified schema relation ++ rest) =
      some ((schema, relation), rest) := by
  have hdot : ('.' :: fs.quoteDdlIdentifier relation ++ rest).head? ≠ some fs.quote := by
    rcases fs.quote_cases with h | h <;> rw [h] <;> simp
  rw [readQualified, qualified, List.append_assoc, readIdentifier_quoted _ _ _ hdot]
  simp only [Option.bind_eq_bind, Option.bind_some]
  rw [show '.' :: fs.quoteDdlIdentifier relation ++ rest =
    ['.'] ++ (fs.quoteDdlIdentifier relation ++ rest) from rfl, afterWord_append, Option.bind_some,
    readIdentifier_quoted _ _ _ hrest]
  rfl

theorem read_createTable (schema relation columns : Str) :
    readStatement fs.quote ("CREATE TABLE ".toList ++ fs.qualified schema relation ++
        " (".toList ++ columns) = some (.CreateTable schema relation) := by
  have hrest : (" (".toList ++ columns).head? ≠ some fs.quote := by
    rcases fs.quote_cases with h | h <;> rw [h] <;> simp
  rw [List.append_assoc, List.append_assoc, readStatement, afterWord_append]
  simp only [readQualified_qualified _ _ _ _ hrest, Option.bind_eq_bind, Option.bind_some,
    afterWord_append]

theorem read_deleteFrom (schema relation : Str) :
    readStatement fs.quote ("DELETE FROM ".toList ++ fs.qualified schema relation) =
      some (.DeleteFrom schema relation) := by
  have hread := fs.readQualified_qualified schema relation [] (by simp)
  rw [List.append_nil] at hread
  rw [readStatement, afterWord_append, afterWord_head_ne _ _ (by simp) (by simp)]
  simp only [hread, Option.bind_eq_bind, Option.bind_some, if_true]

theorem read_drop (kind schema relation : Str) (hkind : ∀ c ∈ kind, Sql.isWordChar c = true) :
    readStatement fs.quote ("DROP ".toList ++ kind ++ ' ' :: fs.qualified schema relation) =
      some (.Drop kind schema relation) := by
  have hread := fs.readQualified_qualified schema relation [] (by simp)
  rw [List.append_nil] at hread
  have hspace : Sql.isWordChar ' ' = false := by decide
  have htake : (kind ++ ' ' :: fs.qualified schema relation).takeWhile Sql.isWordChar = kind := by
    rw [List.takeWhile_append_of_pos hkind, List.takeWhile_cons_of_neg (by simp [hspace]),
      List.append_nil]
  have hdrop : (kind ++ ' ' :: fs.qualified schema relation).dropWhile Sql.isWordChar =
      [' '] ++ fs.qualified schema relation := by
    rw [List.dropWhile_append_of_pos hkind, List.dropWhile_cons_of_neg (by simp [hspace])]
    rfl
  have hdelete (text : Str) : afterWord "DELETE FROM ".toList ("DROP ".toList ++ text) = none := by
    simp [afterWord]
  rw [readStatement, List.append_assoc, afterWord_append,
    afterWord_head_ne "CREATE TABLE ".toList _ (by simp) (by simp), hdelete]
  simp only [hdrop, htake, afterWord_append, hread, Option.bind_eq_bind, Option.bind_some, if_true]

theorem read_renameTable (schema relation targetSchema target : Str) :
    readStatement fs.quote ("RENAME TABLE ".toList ++ fs.qualified schema relation ++
        " TO ".toList ++ fs.qualified targetSchema target) =
      some (.Rename schema relation targetSchema target) := by
  have hrest : (" TO ".toList ++ fs.qualified targetSchema target).head? ≠ some fs.quote := by
    rcases fs.quote_cases with h | h <;> rw [h] <;> simp
  have hread := fs.readQualified_qualified targetSchema target [] (by simp)
  rw [List.append_nil] at hread
  rw [readStatement, List.append_assoc, List.append_assoc, afterWord_append,
    afterWord_head_ne "CREATE TABLE ".toList _ (by simp) (by simp),
    afterWord_head_ne "DELETE FROM ".toList _ (by simp) (by simp),
    afterWord_head_ne "DROP ".toList _ (by simp) (by simp)]
  simp only [fs.readQualified_qualified _ _ _ hrest, afterWord_append, hread, Option.bind_eq_bind,
    Option.bind_some, if_true]

theorem read_alterTable (schema relation target : Str) :
    readStatement fs.quote ("ALTER TABLE ".toList ++ fs.qualified schema relation ++
        " RENAME TO ".toList ++ fs.quoteDdlIdentifier target) =
      some (.Rename schema relation schema target) := by
  have hrest : (" RENAME TO ".toList ++ fs.quoteDdlIdentifier target).head? ≠ some fs.quote := by
    rcases fs.quote_cases with h | h <;> rw [h] <;> simp
  have hread := fs.readIdentifier_quoted target [] (by simp)
  rw [List.append_nil] at hread
  rw [readStatement, List.append_assoc, List.append_assoc, afterWord_append,
    afterWord_head_ne "CREATE TABLE ".toList _ (by simp) (by simp),
    afterWord_head_ne "DELETE FROM ".toList _ (by simp) (by simp),
    afterWord_head_ne "DROP ".toList _ (by simp) (by simp),
    afterWord_head_ne "RENAME TABLE ".toList _ (by simp) (by simp)]
  simp only [fs.readQualified_qualified _ _ _ hrest, afterWord_append, hread, Option.bind_eq_bind,
    Option.bind_some, if_true]

end DdlFs

end FsspecDb.Ddl
