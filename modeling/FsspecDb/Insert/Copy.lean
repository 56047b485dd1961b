import FsspecDb.Insert.Bind
import FsspecDb.Lib.Checked
import FsspecDb.Lib.Csv
import FsspecDb.Sql.Grammar
import FsspecDb.Utf8

/-!
# COPY input (postgres.rs)

A batch is sent as CSV in which every field is quoted and NULL is an unquoted `\N`.
csv_core's writer is a parameter.
-/

namespace FsspecDb.Postgres
open Text Checked

/-! ### The text of a cell -/

def intText (value : Int) : Str :=
  if value < 0 then '-' :: Nat.toDigits 10 value.natAbs else Nat.toDigits 10 value.natAbs

def byteHex (b : Byte) : Str := [Nat.digitChar (b.toNat / 16), Nat.digitChar (b.toNat % 16)]

def postgresByteaHex (value : List Byte) : Str := "\\x".toList ++ value.flatMap byteHex

def slotText {α : Type} (values : List (Option α)) (row : Nat) (text : α → Str) : Option Str :=
  match values[row]? with
  | some (some value) => some (text value)
  | _ => none

def copyCsvValue (floats : FloatText) (array : ArrowArray) (row : Nat) :
    Except DbError (Option Str) :=
  if array.isNull row || array.dataType = .Null then .ok none
  else
    match array with
    | .null _ => .ok none
    | .boolean values =>
      .ok (slotText values row fun v => if v then "true".toList else "false".toList)
    | .int8 values => .ok (slotText values row fun v => intText v.toInt)
    | .int16 values => .ok (slotText values row fun v => intText v.toInt)
    | .int32 values => .ok (slotText values row fun v => intText v.toInt)
    | .int64 values => .ok (slotText values row fun v => intText v.toInt)
    | .uint8 values => .ok (slotText values row fun v => intText v.toNat)
    | .uint16 values => .ok (slotText values row fun v => intText v.toNat)
    | .uint32 values => .ok (slotText values row fun v => intText v.toNat)
    | .uint64 values =>
      match values[row]? with
      | some (some value) =>
        if value.toNat < 2 ^ 63 then .ok (some (intText value.toNat))
        else .error (.InvalidArgument "UInt64 value does not fit in Postgres BIGINT".toList)
      | _ => .ok none
    | .float32 values => .ok (slotText values row floats.f32)
    | .float64 values => .ok (slotText values row floats.f64)
    | .utf8 values | .largeUtf8 values => .ok (slotText values row id)
    | .binary values | .largeBinary values => .ok (slotText values row postgresByteaHex)
    | _ => .error (.NotSupported
      ("Postgres insert does not support Arrow type ".toList ++ array.dataType.debug))

def CellText (floats : FloatText) : CellValue → Option Str → Prop
  | .null, none => True
  | .bool value, some text => text = if value then "true".toList else "false".toList
  | .int value, some text => text = intText value
  | .float bits, some text =>
    text = floats.f64 bits ∨ ∃ single, bits = f64FromF32 single ∧ text = floats.f32 single
  | .text value, some text => text = value
  | .blob value, some text => text = postgresByteaHex value
  | _, _ => False

theorem slotText_cellText (floats : FloatText) {α : Type} (values : List (Option α)) (row : Nat)
    (value : α → CellValue) (text : α → Str)
    (h : ∀ v, CellText floats (value v) (some (text v))) :
    CellText floats (slotValue values row value) (slotText values row text) := by
  unfold slotValue slotText
  cases values[row]? with
  | none => trivial
  | some slot =>
    cases slot with
    | none => trivial
    | some v => exact h v

theorem copyCsvValue_cellText (floats : FloatText) (array : ArrowArray) (row : Nat)
    (field : Option Str) (h : copyCsvValue floats array row = .ok field) :
    CellText floats (array.cell row) field := by
  unfold copyCsvValue at h
  split at h
  · next hnull =>
    have hcell : array.cell row = .null := by
      rw [Bool.or_eq_true, decide_eq_true_iff] at hnull
      rcases hnull with hnull | htype
      · exact cell_of_isNull array row hnull
      · cases array with
        | null n => rfl
        | _ => simp [ArrowArray.dataType] at htype
    rw [hcell, ← Except.ok.inj h]
    trivial
  · cases array with
    | null n =>
      rw [← Except.ok.inj h]
      trivial
    | uint64 values =>
      dsimp only at h
      rw [ArrowArray.cell, slotValue]
      cases hvalue : values[row]? with
      | none =>
        rw [hvalue] at h
        rw [← Except.ok.inj h]
        trivial
      | some slot =>
        cases slot with
        | none =>
          rw [hvalue] at h
          rw [← Except.ok.inj h]
          trivial
        | some value =>
          simp only [hvalue] at h
          split at h
          · rw [← Except.ok.inj h]
            rfl
          · simp at h
    | float32 values =>
      rw [← Except.ok.inj h]
      exact slotText_cellText floats values row _ _ fun v => .inr ⟨v, rfl, rfl⟩
    | float64 values =>
      rw [← Except.ok.inj h]
      exact slotText_cellText floats values row _ _ fun v => .inl rfl
    | boolean values =>
      rw [← Except.ok.inj h]
      exact slotText_cellText floats values row _ _ fun v => by cases v <;> rfl
    | date32 | date64 | time32 | time64 | timestamp | unsupported => simp at h
    | _ values =>
      rw [← Except.ok.inj h]
      exact slotText_cellText floats values row _ _ fun v => rfl

/-! ### csv_core -/

inductive WriteResult where
  | InputEmpty
  | OutputFull
  deriving Repr, DecidableEq

/-- csv_core's `Writer` with `QuoteStyle::Always`. `remaining` is what it still has to
write of the field when `input` is still to come; each call writes a piece of it, and
one that runs out of room has written something. -/
structure CsvCore where
  Writer : Type
  build : Writer
  field : Writer → List Byte → Nat → WriteResult × Nat × List Byte × Writer
  finish : Writer → Nat → WriteResult × List Byte × Writer
  remaining : Writer → List Byte → List Byte
  remaining_build : ∀ value,
    remaining build value = 0x22 :: Quote.double 0x22 value ++ [0x22]
  field_remaining : ∀ writer input room, 2 ≤ room →
    remaining writer input = (field writer input room).2.2.1 ++
      remaining (field writer input room).2.2.2 (input.drop (field writer input room).2.1)
  field_empty : ∀ writer input room, 2 ≤ room → (field writer input room).1 = .InputEmpty →
    input.length ≤ (field writer input room).2.1
  field_full : ∀ writer input room, 2 ≤ room → (field writer input room).1 = .OutputFull →
    (field writer input room).2.2.1 ≠ []
  finish_empty : ∀ writer room, 2 ≤ room → (finish writer room).1 = .InputEmpty →
    remaining writer [] = (finish writer room).2.1
  finish_full : ∀ writer room, 2 ≤ room → (finish writer room).1 = .OutputFull →
    (finish writer room).2.1 ≠ [] ∧
      remaining writer [] = (finish writer room).2.1 ++ remaining (finish writer room).2.2 []

/-- A writer that takes the whole field at once and keeps what does not fit. -/
def bufferedField (pending input : List Byte) (room : Nat) :
    WriteResult × Nat × List Byte × List Byte :=
  let out := pending ++ Quote.double 0x22 input
  if out.length ≤ room then (.InputEmpty, input.length, out, [])
  else (.OutputFull, input.length, out.take room, out.drop room)

def bufferedFinish (pending : List Byte) (room : Nat) : WriteResult × List Byte × List Byte :=
  if pending.length < room then (.InputEmpty, pending ++ [0x22], [])
  else (.OutputFull, pending.take room, pending.drop room)

theorem bufferedField_pending (pending input : List Byte) (room : Nat) :
    (bufferedField pending input room).2.2.1 ++ (bufferedField pending input room).2.2.2 =
        pending ++ Quote.double 0x22 input ∧
      (bufferedField pending input room).2.1 = input.length := by
  unfold bufferedField
  dsimp only
  split
  · exact ⟨List.append_nil _, rfl⟩
  · exact ⟨List.take_append_drop .., rfl⟩

theorem take_ne_nil {out : List Byte} {room : Nat} (hroom : 2 ≤ room) (hlong : room ≤ out.length) :
    out.take room ≠ [] := by
  apply List.ne_nil_of_length_pos
  rw [List.length_take]
  omega

theorem bufferedField_full (pending input : List Byte) (room : Nat) (hroom : 2 ≤ room)
    (h : (bufferedField pending input room).1 = .OutputFull) :
    (bufferedField pending input room).2.2.1 ≠ [] := by
  unfold bufferedField at h ⊢
  dsimp only at h ⊢
  split at h
  · cases h
  · next hlong =>
    rw [if_neg hlong]
    exact take_ne_nil hroom (Nat.le_of_not_le hlong)

theorem bufferedFinish_empty (pending : List Byte) (room : Nat)
    (h : (bufferedFinish pending room).1 = .InputEmpty) :
    (bufferedFinish pending room).2.1 = pending ++ [0x22] := by
  unfold bufferedFinish at h ⊢
  split at h
  · next hshort => rw [if_pos hshort]
  · cases h

theorem bufferedFinish_full (pending : List Byte) (room : Nat) (hroom : 2 ≤ room)
    (h : (bufferedFinish pending room).1 = .OutputFull) :
    (bufferedFinish pending room).2.1 ≠ [] ∧
      (bufferedFinish pending room).2.1 ++ (bufferedFinish pending room).2.2 = pending := by
  unfold bufferedFinish at h ⊢
  split at h
  · cases h
  · next hlong =>
    rw [if_neg hlong]
    exact ⟨take_ne_nil hroom (Nat.le_of_not_lt hlong), List.take_append_drop ..⟩

def bufferedCsvCore : CsvCore where
  Writer := List Byte
  build := [0x22]
  field := bufferedField
  finish := bufferedFinish
  remaining pending input := pending ++ Quote.double 0x22 input ++ [0x22]
  remaining_build value := rfl
  field_remaining pending input room _ := by
    obtain ⟨hpending, hconsumed⟩ := bufferedField_pending pending input room
    rw [hconsumed, List.drop_length, Quote.double, List.append_nil, ← hpending, List.append_assoc]
  field_empty pending input room _ _ :=
    Nat.le_of_eq (bufferedField_pending pending input room).2.symm
  field_full := bufferedField_full
  finish_empty pending room _ h := by
    rw [bufferedFinish_empty pending room h, Quote.double, List.append_nil]
  finish_full pending room hroom h := by
    obtain ⟨hne, hpending⟩ := bufferedFinish_full pending room hroom h
    refine ⟨hne, ?_⟩
    rw [Quote.double, List.append_nil, List.append_nil, ← List.append_assoc, hpending]

def ROOM : Nat := 1024

section
variable (core : CsvCore)

/-- The first loop of `push_csv_escaped_field`. -/
def fieldLoop (writer : core.Writer) (input : List Byte) : List Byte × core.Writer :=
  match _h : core.field writer input ROOM with
  | (.InputEmpty, _, written, writer') => (written, writer')
  | (.OutputFull, consumed, written, writer') =>
    let (more, last) := fieldLoop writer' (input.drop consumed)
    (written ++ more, last)
termination_by (core.remaining writer input).length
decreasing_by
  have hremaining := core.field_remaining writer input ROOM (by decide)
  have hfull := core.field_full writer input ROOM (by decide) (by rw [_h])
  simp only [_h] at hremaining hfull
  rw [hremaining, List.length_append]
  exact Nat.lt_add_of_pos_left (List.length_pos_iff.mpr hfull)

def finishLoop (writer : core.Writer) : List Byte :=
  match _h : core.finish writer ROOM with
  | (.InputEmpty, written, _) => written
  | (.OutputFull, written, writer') => written ++ finishLoop writer'
termination_by (core.remaining writer []).length
decreasing_by
  obtain ⟨hne, hremaining⟩ := core.finish_full writer ROOM (by decide) (by rw [_h])
  simp only [_h] at hremaining hne
  rw [hremaining, List.length_append]
  exact Nat.lt_add_of_pos_left (List.length_pos_iff.mpr hne)

/-- The bytes that `push_csv_escaped_field` appends. -/
def pushCsvEscapedField (value : List Byte) : List Byte :=
  (fieldLoop core core.build value).1 ++ finishLoop core (fieldLoop core core.build value).2

theorem finishLoop_eq (writer : core.Writer) :
    finishLoop core writer = core.remaining writer [] := by
  fun_induction finishLoop core writer with
  | case1 writer written writer' h =>
    have hempty := core.finish_empty writer ROOM (by decide) (by rw [h])
    rw [hempty, h]
  | case2 writer written writer' h ih =>
    have hfull := (core.finish_full writer ROOM (by decide) (by rw [h])).2
    rw [hfull, h, ih]

theorem fieldLoop_eq (writer : core.Writer) (input : List Byte) :
    (fieldLoop core writer input).1 ++ core.remaining (fieldLoop core writer input).2 [] =
      core.remaining writer input := by
  fun_induction fieldLoop core writer input with
  | case1 writer input consumed written writer' h =>
    have hremaining := core.field_remaining writer input ROOM (by decide)
    have hempty := core.field_empty writer input ROOM (by decide) (by rw [h])
    rw [h] at hremaining hempty
    rw [hremaining, List.drop_of_length_le hempty]
  | case2 writer input consumed written writer' h more last heq ih =>
    have hremaining := core.field_remaining writer input ROOM (by decide)
    rw [h] at hremaining
    rw [heq] at ih
    rw [hremaining, List.append_assoc]
    exact congrArg (written ++ ·) ih

/-- The field in quotes, its quotes doubled, whatever room the writer had for it. -/
theorem pushCsvEscapedField_eq (value : List Byte) :
    pushCsvEscapedField core value = 0x22 :: Quote.double 0x22 value ++ [0x22] := by
  rw [pushCsvEscapedField, finishLoop_eq, fieldLoop_eq, core.remaining_build]

end

/-! ### A batch as CSV -/

section
variable (core : CsvCore) (floats : FloatText)

/-- What stands for a field: `\N` is NULL. -/
def csvFieldBytes : Option Str → List Byte
  | some value => pushCsvEscapedField core (Utf8.encode value)
  | none => [0x5C, 0x4E]

/-- The inner loop of `batch_to_copy_csv`, from a column on. -/
def copyCsvFields (row : Nat) : List ArrowArray → Except DbError (List Byte)
  | [] => .ok []
  | [column] => (copyCsvValue floats column row).map (csvFieldBytes core)
  | column :: columns => do
    let field ← copyCsvValue floats column row
    let rest ← copyCsvFields row columns
    .ok (csvFieldBytes core field ++ 0x2C :: rest)

def batchToCopyCsv (batch : RecordBatch) : Except DbError (List Byte) :=
  ((List.range batch.numRows).mapM fun row =>
    (copyCsvFields core floats row batch.columns).map fun fields => fields ++ [0x0A]).map
      List.flatten

def copyInSql (schema relation : Str) (columns : List Str) : Except DbError Str :=
  if columns = [] then .error (.InvalidArgument "COPY requires at least one column".toList)
  else do
    let relation ← Sql.qualifiedName .Postgres schema relation
    let columnList ← columns.mapM (Sql.quoteIdentifier .Postgres)
    .ok ("COPY ".toList ++ relation ++ " (".toList ++ join ", ".toList columnList ++
      ") FROM STDIN WITH (FORMAT csv, NULL '\\N')".toList)

theorem lex_copyInSql (schema relation : Str) (columns : List Str) (text : Str)
    (h : copyInSql schema relation columns = .ok text) :
    columns ≠ [] ∧ Sql.lex '"' text = some
      (.word "COPY".toList :: .ident schema :: .symbol '.' :: .ident relation ::
        .symbol '(' :: (Sql.commaTokens (columns.map fun name => [.ident name]) ++
        [.symbol ')', .word "FROM".toList, .word "STDIN".toList, .word "WITH".toList, .symbol '(',
          .word "FORMAT".toList, .word "csv".toList, .symbol ',', .word "NULL".toList,
          .literal "\\N".toList, .symbol ')'])) := by
  unfold copyInSql at h
  split at h
  · simp at h
  · next hcolumns =>
    obtain ⟨relationText, hrelation, h⟩ := bind_eq_ok_iff.mp h
    obtain ⟨columnTexts, hcolumnTexts, h⟩ := bind_eq_ok_iff.mp h
    refine ⟨hcolumns, ?_⟩
    have hcopy : Sql.Lexes '"' "COPY ".toList [.word "COPY".toList] := Sql.lexes_fixed rfl rfl
    have hopen : Sql.Lexes '"' " (".toList [.symbol '('] := Sql.lexes_fixed rfl rfl
    have hoptions : Sql.Lexes '"' ") FROM STDIN WITH (FORMAT csv, NULL '\\N')".toList
        [.symbol ')', .word "FROM".toList, .word "STDIN".toList, .word "WITH".toList, .symbol '(',
          .word "FORMAT".toList, .word "csv".toList, .symbol ',', .word "NULL".toList,
          .literal "\\N".toList, .symbol ')'] := Sql.lexes_fixed rfl rfl
    have htext := (((hcopy.append_before (Sql.lexes_qualified .Postgres schema relation)).append
      hopen (by simp) (by decide)).append_before (Sql.lexes_columns .Postgres columns)).append
      hoptions (by simp) (by decide)
    rw [← Sql.qualifiedName_ok .Postgres schema relation relationText hrelation,
      ← Sql.mapM_quoteIdentifier_ok .Postgres columns columnTexts hcolumnTexts] at htext
    rw [← Except.ok.inj h, htext.before.lex_eq]
    simp

/-- The text of a COPY is the statement with the batch's columns. -/
theorem parse_copyInSql (schema relation : Str) (columns : List Str) (text : Str)
    (h : copyInSql schema relation columns = .ok text) :
    columns ≠ [] ∧ Sql.parseStatement '"' text =
      some (.copy schema relation columns "\\N".toList) := by
  obtain ⟨hcolumns, hlex⟩ := lex_copyInSql schema relation columns text h
  rw [Sql.parseStatement, hlex]
  exact ⟨hcolumns, Sql.parseTokens_copy schema relation "\\N".toList columns hcolumns⟩

/-! ### What PostgreSQL reads -/

def csvFormat : Csv.Format Byte where
  quote := 0x22
  delimiter := 0x2C
  newline := 0x0A
  delimiter_ne_quote := by decide
  newline_ne_quote := by decide
  newline_ne_delimiter := by decide

/-- A field without quotes that is the text for NULL is NULL. -/
def copyInput (null : List Byte) (field : Csv.Field Byte) : Option (List Byte) :=
  if field.quoted = false ∧ field.text = null then none else some field.text

def csvField : Option Str → Csv.Field Byte
  | some value => ⟨true, Utf8.encode value⟩
  | none => ⟨false, [0x5C, 0x4E]⟩

theorem csvFieldBytes_eq (field : Option Str) :
    csvFieldBytes core field = Csv.renderField csvFormat (csvField field) := by
  cases field with
  | none => rfl
  | some value => exact pushCsvEscapedField_eq core (Utf8.encode value)

theorem csvField_valid (field : Option Str) : (csvField field).Valid csvFormat := by
  cases field with
  | none => exact fun _ => by simp [csvField, csvFormat]
  | some value => exact fun h => absurd h (by simp [csvField])

/-- A quoted field is its text, `\N` without quotes is NULL. -/
theorem copyInput_csvField (field : Option Str) :
    copyInput [0x5C, 0x4E] (csvField field) = field.map Utf8.encode := by
  cases field with
  | none => rfl
  | some value => simp [copyInput, csvField]

theorem copyCsvFields_ok (row : Nat) (columns : List ArrowArray) (bytes : List Byte)
    (h : copyCsvFields core floats row columns = .ok bytes) :
    ∃ fields, List.Forall₂ (fun column field => copyCsvValue floats column row = .ok field)
        columns fields ∧
      bytes ++ [0x0A] = Csv.renderRecord csvFormat (fields.map csvField) := by
  induction columns generalizing bytes with
  | nil =>
    rw [← Except.ok.inj h]
    exact ⟨[], .nil, rfl⟩
  | cons column columns ih =>
    cases columns with
    | nil =>
      obtain ⟨field, hfield, rfl⟩ := map_eq_ok_iff.mp h
      exact ⟨[field], .cons hfield .nil, by rw [csvFieldBytes_eq]; rfl⟩
    | cons next columns =>
      obtain ⟨field, hfield, h⟩ := bind_eq_ok_iff.mp h
      obtain ⟨rest, hrest, h⟩ := bind_eq_ok_iff.mp h
      obtain ⟨fields, hfields, hbytes⟩ := ih rest hrest
      refine ⟨field :: fields, .cons hfield hfields, ?_⟩
      have hrecord : Csv.renderRecord csvFormat ((field :: fields).map csvField) =
          Csv.renderField csvFormat (csvField field) ++
            0x2C :: Csv.renderRecord csvFormat (fields.map csvField) := by
        cases hfields with
        | cons _ _ => rfl
      rw [← Except.ok.inj h, hrecord, ← hbytes, csvFieldBytes_eq, List.append_assoc]
      rfl

/-- PostgreSQL reads as many records as the batch has rows, and the fields of each are
those of the row's cells. -/
theorem batchToCopyCsv_read (batch : RecordBatch) (data : List Byte) (hcolumns : batch.columns ≠ [])
    (h : batchToCopyCsv core floats batch = .ok data) :
    ∃ records : List (List (Option Str)),
      List.Forall₂ (fun row fields => List.Forall₂ (fun column field =>
        copyCsvValue floats column row = .ok field) batch.columns fields)
        (List.range batch.numRows) records ∧
      Csv.read csvFormat data = some (records.map fun fields => fields.map csvField) := by
  obtain ⟨lines, hlines, rfl⟩ := map_eq_ok_iff.mp h
  have hrecords : ∃ records : List (List (Option Str)),
      List.Forall₂ (fun row fields => List.Forall₂ (fun column field =>
        copyCsvValue floats column row = .ok field) batch.columns fields)
        (List.range batch.numRows) records ∧ (∀ fields ∈ records, fields ≠ []) ∧
      lines = records.map fun fields => Csv.renderRecord csvFormat (fields.map csvField) := by
    have hall := mapM_eq_ok_iff.mp hlines
    clear h hlines
    generalize List.range batch.numRows = rows at hall ⊢
    induction hall with
    | nil => exact ⟨[], .nil, by simp, rfl⟩
    | cons hline _ ih =>
      obtain ⟨bytes, hbytes, rfl⟩ := map_eq_ok_iff.mp hline
      obtain ⟨fields, hfields, heq⟩ := copyCsvFields_ok core floats _ _ bytes hbytes
      obtain ⟨records, hrecords, hnonempty, rfl⟩ := ih
      refine ⟨fields :: records, .cons hfields hrecords, ?_, by rw [heq]; rfl⟩
      rw [List.forall_mem_cons]
      refine ⟨?_, hnonempty⟩
      intro hsame
      subst hsame
      exact hcolumns (List.forall₂_nil_right_iff.mp hfields)
  obtain ⟨records, hall, hnonempty, rfl⟩ := hrecords
  refine ⟨records, hall, ?_⟩
  have hread := Csv.read_records csvFormat (records.map fun fields => fields.map csvField) (by
    intro record hrecord
    obtain ⟨fields, hfields, rfl⟩ := List.mem_map.mp hrecord
    refine ⟨?_, fun field hfield => ?_⟩
    · exact fun h => hnonempty fields hfields (List.map_eq_nil_iff.mp h)
    · obtain ⟨value, _, rfl⟩ := List.mem_map.mp hfield
      exact csvField_valid value)
  rw [← hread, List.flatMap_map]
  rfl

end

end FsspecDb.Postgres
