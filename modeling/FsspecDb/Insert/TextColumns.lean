import FsspecDb.Fs.DatabaseFs
import FsspecDb.Insert.Native
import FsspecDb.Text.Split

/-!
# Text columns in CSV and JSONL writes (fs.rs, mysql.rs, postgres.rs)

`arrow_type_for_database_type` looks for words in the text of a database type. The text of an
enum or a set has the labels in it, and a user-defined type has the name its user gave it.
-/

namespace FsspecDb.Insert
open Text Fs

/- The columns that the query of the MySQL backend selects from `information_schema.columns`. -/
structure MySqlColumnRow where
  columnName : Str
  columnType : Str
  isNullable : Str
  columnDefault : Option Str
  ordinalPosition : UInt32
  columnKey : Str

def mySqlColumn (row : MySqlColumnRow) : ColumnInfo where
  name := row.columnName
  dataType := row.columnType
  nullable := row.isNullable = "YES".toList
  default := row.columnDefault
  ordinal := row.ordinalPosition
  primaryKey := row.columnKey = "PRI".toList
  comment := none

structure PostgresColumnRow where
  columnName : Str
  dataType : Str
  udtName : Str
  isNullable : Str
  columnDefault : Option Str
  ordinalPosition : Int32

def postgresColumn (primaryKeys : List Str) (row : PostgresColumnRow) : ColumnInfo where
  name := row.columnName
  dataType := if row.dataType = "USER-DEFINED".toList then row.udtName else row.dataType
  nullable := row.isNullable = "YES".toList
  default := row.columnDefault
  ordinal := row.ordinalPosition.toUInt32
  primaryKey := primaryKeys.contains row.columnName
  comment := none

/- The `column_type` of an enum or a set; `render` is how the server writes a label. -/
def labelsType (keyword : Str) (render : Str → Str) (labels : List Str) : Str :=
  keyword ++ '(' :: (join [','] (labels.map fun label => '\'' :: (render label ++ ['\''])) ++ [')'])

/- A column of one of the text types, with the texts in its type that users choose. -/
inductive TextColumn (render : Str → Str) : ColumnInfo → List Str → Prop where
  | enum (row : MySqlColumnRow) (labels : List Str)
      (h : row.columnType = labelsType "enum".toList render labels) :
      TextColumn render (mySqlColumn row) (labels.map render)
  | set (row : MySqlColumnRow) (labels : List Str)
      (h : row.columnType = labelsType "set".toList render labels) :
      TextColumn render (mySqlColumn row) (labels.map render)
  | userDefined (primaryKeys : List Str) (row : PostgresColumnRow)
      (h : row.dataType = "USER-DEFINED".toList) :
      TextColumn render (postgresColumn primaryKeys row) [row.udtName]

/-! ### The words looked for -/

def typeWords : List Str :=
  ["bool".toList, "int".toList, "real".toList, "floa".toList, "doub".toList, "numeric".toList,
    "decimal".toList, "blob".toList, "binary".toList]

def HasTypeWord (text : Str) : Prop := ∃ word ∈ typeWords, word <:+: toAsciiLowercase text

instance (text : Str) : Decidable (HasTypeWord text) :=
  inferInstanceAs (Decidable (∃ word ∈ typeWords, word <:+: toAsciiLowercase text))

theorem arrowType_utf8_iff (dataType : Str) :
    arrowTypeForDatabaseType dataType = .Utf8 ↔ ¬ HasTypeWord dataType := by
  have hcontains (text word : Str) : contains text word = true ↔ word <:+: text :=
    decide_eq_true_iff
  simp only [arrowTypeForDatabaseType, HasTypeWord, typeWords, List.mem_cons, exists_eq_or_imp,
    exists_eq_left, List.not_mem_nil, or_false, Bool.or_eq_true, hcontains, not_or]
  constructor
  · intro h
    split_ifs at h with hbool hint hfloat hbinary
    simp only [not_or] at hfloat hbinary
    exact ⟨hbool, hint, hfloat.1.1.1.1, hfloat.1.1.1.2, hfloat.1.1.2, hfloat.1.2, hfloat.2,
      hbinary.1, hbinary.2⟩
  · intro hnone
    obtain ⟨hbool, hint, hreal, hfloa, hdoub, hnumeric, hdecimal, hblob, hbinary⟩ := hnone
    simp only [hbool, hint, hreal, hfloa, hdoub, hnumeric, hdecimal, hblob, hbinary, or_self,
      if_false]

/- No word reaches across a bracket, a comma or a quote. -/
theorem typeWord_separate (word : Str) (hword : word ∈ typeWords) :
    word ≠ [] ∧ '(' ∉ word ∧ ')' ∉ word ∧ ',' ∉ word ∧ '\'' ∉ word := by
  have hall : (typeWords.all fun word => decide (word ≠ [] ∧ '(' ∉ word ∧ ')' ∉ word ∧
      ',' ∉ word ∧ '\'' ∉ word)) = true := by decide
  exact of_decide_eq_true (List.all_eq_true.mp hall word hword)

theorem toAsciiLowercase_join (c : Char) (hc : c.toLower = c) (parts : List Str) :
    toAsciiLowercase (join [c] parts) = join [c] (parts.map toAsciiLowercase) := by
  induction parts with
  | nil => rfl
  | cons part parts ih =>
    cases parts with
    | nil => simp [join]
    | cons next parts =>
      simp only [join, List.map_cons] at ih
      simp only [join, List.map_cons, List.intercalate_cons_cons, ← ih]
      simp [toAsciiLowercase, hc]

/- The text of an enum or a set has a word in it where a label has. -/
theorem hasTypeWord_labelsType (keyword : Str) (render : Str → Str) (labels : List Str)
    (hkeyword : ¬ HasTypeWord keyword) : HasTypeWord (labelsType keyword render labels) ↔
      ∃ label ∈ labels.map render, HasTypeWord label := by
  have hlower : toAsciiLowercase (labelsType keyword render labels) =
      toAsciiLowercase keyword ++ '(' :: (join [','] (labels.map fun label =>
        '\'' :: (toAsciiLowercase (render label) ++ ['\''])) ++ ')' :: []) := by
    have hlabels := toAsciiLowercase_join ',' (by decide)
      (labels.map fun label => '\'' :: (render label ++ ['\'']))
    have hquoted : (labels.map fun label => '\'' :: (render label ++ ['\''])).map
        toAsciiLowercase =
        labels.map fun label => '\'' :: (toAsciiLowercase (render label) ++ ['\'']) := by
      rw [List.map_map]
      apply List.map_congr_left
      intro label _
      simp [toAsciiLowercase]
    rw [hquoted] at hlabels
    rw [← hlabels]
    simp [labelsType, toAsciiLowercase]
  have hword (word : Str) (hmem : word ∈ typeWords) :
      word <:+: toAsciiLowercase (labelsType keyword render labels) ↔
        ∃ label ∈ labels, word <:+: toAsciiLowercase (render label) := by
    obtain ⟨hne, hopen, hclose, hcomma, hquote⟩ := typeWord_separate word hmem
    have hnil : ¬ word <:+: [] := by rw [List.infix_nil]; exact hne
    have hnone : ¬ word <:+: toAsciiLowercase keyword := fun h => hkeyword ⟨word, hmem, h⟩
    rw [hlower, infix_append_cons_iff word _ _ '(' hopen, infix_append_cons_iff word _ _ ')' hclose,
      infix_join_iff word ',' _ hcomma hne]
    simp only [hnone, hnil, false_or, or_false, List.mem_map, exists_exists_and_eq_and]
    apply exists_congr
    intro label
    apply and_congr_right
    intro _
    rw [← List.nil_append ('\'' :: _), infix_append_cons_iff word _ _ '\'' hquote,
      infix_append_cons_iff word _ _ '\'' hquote]
    simp only [hnil, false_or, or_false]
  constructor
  · intro hhas
    obtain ⟨word, hmem, hoccurs⟩ := hhas
    obtain ⟨label, hlabel, hin⟩ := (hword word hmem).mp hoccurs
    exact ⟨render label, List.mem_map_of_mem hlabel, word, hmem, hin⟩
  · intro hhas
    obtain ⟨text, htext, word, hmem, hin⟩ := hhas
    obtain ⟨label, hlabel, rfl⟩ := List.mem_map.mp htext
    exact ⟨word, hmem, (hword word hmem).mpr ⟨label, hlabel, hin⟩⟩

theorem TextColumn.utf8_iff {render : Str → Str} {column : ColumnInfo} {names : List Str}
    (h : TextColumn render column names) :
    arrowTypeForDatabaseType column.dataType = .Utf8 ↔ ∀ name ∈ names, ¬ HasTypeWord name := by
  rw [arrowType_utf8_iff]
  cases h with
  | enum row labels hrow =>
    rw [mySqlColumn, hrow, hasTypeWord_labelsType "enum".toList render labels (by decide)]
    simp only [not_exists, not_and]
  | set row labels hrow =>
    rw [mySqlColumn, hrow, hasTypeWord_labelsType "set".toList render labels (by decide)]
    simp only [not_exists, not_and]
  | userDefined primaryKeys row hrow =>
    rw [postgresColumn, if_pos hrow]
    simp only [List.mem_singleton, forall_eq]

/-! ### Uploads -/

/- The texts in a column of all batches; `none` where its arrays are not of strings. -/
def columnTexts (j : Nat) : List RecordBatch → Option (List (Option Str))
  | [] => some []
  | batch :: batches =>
    match batch.columns[j]? with
    | some (.utf8 texts) => (columnTexts j batches).map fun rest => texts ++ rest
    | _ => none

/-- A decoder of rows of text by a schema: the batches have the schema, and a `Utf8` column is
the texts that the upload has for a column of this position and name. -/
structure KeepsText (decode : List Byte → Schema → Except DbError BatchReader)
    (written : List Byte → Nat → Str → List (Option Str)) : Prop where
  typed : ∀ data schema reader, decode data schema = .ok reader →
    ∀ batch, .ok batch ∈ reader → batch.schema = schema
  kept : ∀ data schema (batches : List RecordBatch), decode data schema = .ok (batches.map .ok) →
    ∀ (j : Nat) (field : Field), schema[j]? = some field → field.dataType = .Utf8 →
      columnTexts j batches = some (written data j field.name)

/- An array of a batch has the type of its field. -/
theorem column_dataType (batch : RecordBatch) (j : Nat) (field : Field)
    (hfield : batch.schema[j]? = some field) (array : ArrowArray)
    (harray : batch.columns[j]? = some array) : array.dataType = field.dataType := by
  have htypes := congrArg (fun types : List DataType => types[j]?) batch.wellFormed.types
  simp only [List.getElem?_map, hfield, harray, Option.map_some, Option.some.injEq] at htypes
  exact htypes

section
variable {σ : Type} (db : Database σ BatchReader) (contents : σ) (schema relation : Str)

theorem arrowSchema_field (columns : List ColumnInfo)
    (hcolumns : db.listColumns contents schema relation = .ok columns) (j : Nat)
    (column : ColumnInfo) (hcolumn : columns[j]? = some column) :
    ∃ fields, arrowSchema db contents schema relation = .ok fields ∧
      fields[j]? = some ⟨column.name, arrowTypeForDatabaseType column.dataType,
        column.nullable⟩ := by
  refine ⟨columns.map fun column =>
    ⟨column.name, arrowTypeForDatabaseType column.dataType, column.nullable⟩, ?_, ?_⟩
  · rw [arrowSchema, hcolumns]
    rfl
  · rw [List.getElem?_map, hcolumn, Option.map_some]

/- A decoded reader is what `insert` is called with. -/
theorem writeBytes_insert (decoder : Decoder BatchReader) (path : Str) (data : List Byte)
    (mode : InsertMode) (format : DataFormat) (reader : BatchReader)
    (htarget : writeTarget db contents path = .ok (schema, relation, format))
    (hdecode : decodeStream db decoder contents schema relation format data = .ok reader) :
    writeBytesToDatabase db decoder contents path data mode =
      db.insert contents schema relation reader mode := by
  unfold writeBytesToDatabase
  rw [htarget]
  dsimp only
  rw [hdecode]

/- A decoded column of a text type against what the upload has in it. -/
theorem decoded_column (decode : List Byte → Schema → Except DbError BatchReader)
    (written : List Byte → Nat → Str → List (Option Str)) (hdecoder : KeepsText decode written)
    (data : List Byte) (fields : Schema) (reader : BatchReader)
    (hdecode : decode data fields = .ok reader) (j : Nat) (field : Field)
    (hfield : fields[j]? = some field) :
    (field.dataType = .Utf8 → ∀ batches : List RecordBatch, reader = batches.map .ok →
      columnTexts j batches = some (written data j field.name)) ∧
    (field.dataType ≠ .Utf8 → ∀ batch, .ok batch ∈ reader → ∀ texts,
      batch.columns[j]? ≠ some (.utf8 texts)) := by
  constructor
  · intro htype batches hreader
    rw [hreader] at hdecode
    exact hdecoder.kept data fields batches hdecode j field hfield htype
  · intro htype batch hbatch texts harray
    rw [← hdecoder.typed data fields reader hdecode batch hbatch] at hfield
    exact htype (column_dataType batch j field hfield _ harray).symm

theorem text_columns_stay_text (decoder : Decoder BatchReader)
    (csv jsonl : List Byte → Nat → Str → List (Option Str))
    (hcsv : KeepsText decoder.csvToArrow csv) (hjsonl : KeepsText decoder.jsonlToArrow jsonl)
    (columns : List ColumnInfo)
    (hcolumns : db.listColumns contents schema relation = .ok columns)
    (render : Str → Str) (j : Nat) (column : ColumnInfo) (hcolumn : columns[j]? = some column)
    (names : List Str) (htext : TextColumn render column names) :
    (∃ fields, arrowSchema db contents schema relation = .ok fields ∧
      (fields[j]?.map Field.dataType = some .Utf8 ↔ ∀ name ∈ names, ¬ HasTypeWord name)) ∧
    ∀ path data mode format reader,
      writeTarget db contents path = .ok (schema, relation, format) →
      format = .Csv ∨ format = .Jsonl →
      decodeStream db decoder contents schema relation format data = .ok reader →
      writeBytesToDatabase db decoder contents path data mode =
        db.insert contents schema relation reader mode ∧
      ((∀ name ∈ names, ¬ HasTypeWord name) → ∀ batches : List RecordBatch,
        reader = batches.map .ok →
        columnTexts j batches =
          some ((if format = .Csv then csv else jsonl) data j column.name)) ∧
      (¬ (∀ name ∈ names, ¬ HasTypeWord name) → ∀ batch, .ok batch ∈ reader → ∀ texts,
        batch.columns[j]? ≠ some (.utf8 texts)) := by
  obtain ⟨fields, hfields, hfield⟩ :=
    arrowSchema_field db contents schema relation columns hcolumns j column hcolumn
  have hutf8 := htext.utf8_iff
  refine ⟨⟨fields, hfields, ?_⟩, ?_⟩
  · rw [hfield, Option.map_some, Option.some.injEq]
    exact hutf8
  · intro path data mode format reader htarget hformat hdecode
    refine ⟨writeBytes_insert db contents schema relation decoder path data mode format reader
      htarget hdecode, ?_⟩
    rw [← hutf8]
    rcases hformat with rfl | rfl
    · have hread : decoder.csvToArrow data fields = .ok reader := by
        unfold decodeStream at hdecode
        rw [hfields] at hdecode
        exact hdecode
      exact decoded_column decoder.csvToArrow csv hcsv data fields reader hread j _ hfield
    · have hread : decoder.jsonlToArrow data fields = .ok reader := by
        unfold decodeStream at hdecode
        rw [hfields] at hdecode
        exact hdecode
      exact decoded_column decoder.jsonlToArrow jsonl hjsonl data fields reader hread j _ hfield

end

/-! ### A table of one column -/

def columnDb (column : ColumnInfo) : Database Unit BatchReader where
  dialect := .MySql
  listSchemas _ := .ok [⟨"shop".toList, none, none⟩]
  listRelations _ _ := .ok [⟨"items".toList, .Table, none, none, none⟩]
  listColumns _ _ _ := .ok [column]
  listIndexes _ _ _ := .ok []
  listConstraints _ _ _ := .ok []
  relationInfo _ _ relation := .ok ⟨relation, .Table, none, none, none⟩
  viewDefinition _ _ _ := .error (.InvalidArgument "relation is not a view".toList)
  insert _ _ _ reader _ := (.ok (UInt64.ofNat reader.length), ())
  viewDependencies _ := []

def linesOf (data : List Byte) : List Str :=
  ((data.map fun byte => Char.ofNat byte.toNat).splitOn '\n').filter fun line => !line.isEmpty

/- CSV with one column and without quoted fields: the lines after the one with its name. -/
def csvTexts (data : List Byte) (_ : Nat) (_ : Str) : List (Option Str) :=
  ((linesOf data).drop 1).map some

/- JSONL of objects with one text each, which is null for a column of another name. -/
def jsonlTexts (data : List Byte) (_ : Nat) (name : Str) : List (Option Str) :=
  let start := "\x7b\"".toList ++ name ++ "\":\"".toList
  (linesOf data).map fun line =>
    if start.isPrefixOf line then some ((line.drop start.length).take
      (line.length - start.length - 2)) else none

/- A file for a table with one text column. -/
def decodeColumn (texts : List Byte → Nat → Str → List (Option Str)) (data : List Byte)
    (schema : Schema) : Except DbError BatchReader :=
  match schema with
  | [⟨name, .Utf8, nullable⟩] =>
    (RecordBatch.tryNew [⟨name, .Utf8, nullable⟩] [.utf8 (texts data 0 name)]).map
      fun batch => [.ok batch]
  | _ => .error (.NotSupported "one text column is read".toList)

def columnDecoder : Decoder BatchReader where
  parquetToArrow _ := .error (.Parquet "not a parquet file".toList)
  ipcToArrow _ := .error (.Arrow "not an IPC file".toList)
  csvToArrow := decodeColumn csvTexts
  jsonlToArrow := decodeColumn jsonlTexts

theorem decodeColumn_ok (texts : List Byte → Nat → Str → List (Option Str)) (data : List Byte)
    (schema : Schema) (reader : BatchReader) (h : decodeColumn texts data schema = .ok reader) :
    ∃ name nullable batch, schema = [⟨name, .Utf8, nullable⟩] ∧ reader = [.ok batch] ∧
      batch.schema = schema ∧ batch.columns = [.utf8 (texts data 0 name)] := by
  unfold decodeColumn at h
  split at h
  · next name nullable =>
    obtain ⟨batch, hbatch, rfl⟩ := Checked.map_eq_ok_iff.mp h
    obtain ⟨hschema, hcolumns⟩ := RecordBatch.eq_of_tryNew _ _ _ hbatch
    exact ⟨name, nullable, batch, rfl, rfl, hschema, hcolumns⟩
  · cases h

theorem keepsText_column (texts : List Byte → Nat → Str → List (Option Str))
    (hfirst : ∀ data j name, texts data j name = texts data 0 name) :
    KeepsText (decodeColumn texts) texts := by
  constructor
  · intro data schema reader hdecode batch hbatch
    obtain ⟨_, _, other, -, rfl, hschema, -⟩ := decodeColumn_ok texts data schema reader hdecode
    rw [Except.ok.inj (List.mem_singleton.mp hbatch)]
    exact hschema
  · intro data schema batches hdecode j field hfield htype
    obtain ⟨name, nullable, batch, rfl, hreader, -, hcolumns⟩ :=
      decodeColumn_ok texts data schema _ hdecode
    obtain rfl : batches = [batch] := by
      rw [List.map_eq_singleton_iff] at hreader
      obtain ⟨other, rfl, heq⟩ := hreader
      rw [Except.ok.inj heq]
    have hname : field.name = name := by
      rw [List.mem_singleton.mp (List.mem_of_getElem? hfield)]
    rw [hname, hfirst]
    have hj : j = 0 := by
      have hlt := (List.getElem?_eq_some_iff.mp hfield).1
      simpa using hlt
    rw [hj]
    simp [columnTexts, hcolumns]

def sizeColumn : MySqlColumnRow :=
  ⟨"size".toList, "enum('small','large')".toList, "YES".toList, none, 1, []⟩

def bytesOf (text : Str) : List Byte := text.map fun c => UInt8.ofNat c.toNat

def sizeCsv : List Byte := bytesOf "size\nsmall\nlarge\n".toList

def sizeJsonl : List Byte :=
  bytesOf "\x7b\"size\":\"small\"\x7d\n\x7b\"size\":\"large\"\x7d\n".toList

theorem text_columns_stay_text_sizes :
    (∃ fields, arrowSchema (columnDb (mySqlColumn sizeColumn)) () "shop".toList "items".toList =
        .ok fields ∧ fields[0]?.map Field.dataType = some .Utf8) ∧
      ∀ upload ∈ [("/shop/items.csv".toList, sizeCsv), ("/shop/items.jsonl".toList, sizeJsonl)],
        ∃ batch, writeBytesToDatabase (columnDb (mySqlColumn sizeColumn)) columnDecoder ()
            upload.1 upload.2 .Append = (columnDb (mySqlColumn sizeColumn)).insert
              () "shop".toList "items".toList [.ok batch] .Append ∧
          columnTexts 0 [batch] = some [some "small".toList, some "large".toList] := by
  have hwords : ∀ name ∈ ["small".toList, "large".toList], ¬ HasTypeWord name := by decide
  obtain ⟨⟨fields, hfields, htype⟩, hwrite⟩ := text_columns_stay_text
    (columnDb (mySqlColumn sizeColumn)) () "shop".toList "items".toList columnDecoder
    csvTexts jsonlTexts (keepsText_column csvTexts fun _ _ _ => rfl)
    (keepsText_column jsonlTexts fun _ _ _ => rfl)
    [mySqlColumn sizeColumn] rfl id 0 (mySqlColumn sizeColumn) rfl
    ["small".toList, "large".toList]
    (.enum sizeColumn ["small".toList, "large".toList] (by decide))
  obtain ⟨batch, hbatch, -⟩ := RecordBatch.tryNew_ok [⟨"size".toList, .Utf8, true⟩]
    [.utf8 [some "small".toList, some "large".toList]] 2 (by simp) (by decide)
  have hdecode (texts : List Byte → Nat → Str → List (Option Str)) (data : List Byte)
      (htexts : texts data 0 "size".toList = [some "small".toList, some "large".toList]) :
      decodeColumn texts data [⟨"size".toList, .Utf8, true⟩] = .ok [.ok batch] := by
    rw [decodeColumn, htexts, hbatch]
    rfl
  have hcsv : csvTexts sizeCsv 0 "size".toList = [some "small".toList, some "large".toList] := by
    decide +kernel
  have hjsonl : jsonlTexts sizeJsonl 0 "size".toList =
      [some "small".toList, some "large".toList] := by decide +kernel
  refine ⟨⟨fields, hfields, htype.mpr hwords⟩, fun upload hupload => ⟨batch, ?_⟩⟩
  rcases List.mem_pair.mp hupload with rfl | rfl
  · obtain ⟨hinsert, htexts, -⟩ := hwrite "/shop/items.csv".toList sizeCsv .Append .Csv _
      (by decide) (.inl rfl) (hdecode csvTexts sizeCsv hcsv)
    exact ⟨hinsert, (htexts hwords [batch] rfl).trans (congrArg some hcsv)⟩
  · obtain ⟨hinsert, htexts, -⟩ := hwrite "/shop/items.jsonl".toList sizeJsonl .Append .Jsonl _
      (by decide) (.inr rfl) (hdecode jsonlTexts sizeJsonl hjsonl)
    exact ⟨hinsert, (htexts hwords [batch] rfl).trans (congrArg some hjsonl)⟩

/- A label with a word in it, and a type name with one: both columns are read as integers. -/
theorem text_columns_stay_text_point :
    arrowSchema (columnDb (mySqlColumn
        ⟨"shape".toList, "enum('point','line')".toList, "YES".toList, none, 1, []⟩)) ()
        "shop".toList "items".toList = .ok [⟨"shape".toList, .Int64, true⟩] ∧
    arrowSchema (columnDb (postgresColumn []
        ⟨"style".toList, "USER-DEFINED".toList, "print_style".toList, "YES".toList, none, 1⟩)) ()
        "shop".toList "items".toList = .ok [⟨"style".toList, .Int64, true⟩] := by
  decide

end FsspecDb.Insert
