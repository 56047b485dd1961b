import FsspecDb.Lib.Quote

/-!
# Reading comma-separated records

Records of fields that may stand in quotes, where a quote is doubled and delimiters and
line ends are data. A field remembers whether it had quotes.
-/

namespace Csv

variable {α : Type*} [DecidableEq α]

structure Format (α : Type*) where
  quote : α
  delimiter : α
  newline : α
  delimiter_ne_quote : delimiter ≠ quote
  newline_ne_quote : newline ≠ quote
  newline_ne_delimiter : newline ≠ delimiter

structure Field (α : Type*) where
  quoted : Bool
  text : List α
  deriving Repr, DecidableEq

/-- Where the reader is: at the start of a record, in a field, between quotes, or after
a quote that may be the first of two. -/
inductive Mode where
  | start
  | plain
  | inQuotes
  | afterQuote
  deriving Repr, DecidableEq

def addField (field : Field α) : List (List (Field α)) → List (List (Field α))
  | [] => [[field]]
  | record :: records => (field :: record) :: records

/-- The records from here on, the first one without the fields before this one. What has
been read of the field stands in reverse order. -/
def readFrom (format : Format α) : Mode → Bool → List α → List α → Option (List (List (Field α)))
  | .start, _, _, [] => some []
  | .inQuotes, _, _, [] => none
  | _, quoted, read, [] => some [[⟨quoted, read.reverse⟩]]
  | mode, quoted, read, c :: input =>
    if mode = .inQuotes then
      if c = format.quote then readFrom format .afterQuote quoted read input
      else readFrom format .inQuotes quoted (c :: read) input
    else if mode = .afterQuote ∧ c = format.quote then
      readFrom format .inQuotes quoted (c :: read) input
    else if c = format.quote then readFrom format .inQuotes true read input
    else if c = format.delimiter then
      (readFrom format .plain false [] input).map (addField ⟨quoted, read.reverse⟩)
    else if c = format.newline then
      (readFrom format .start false [] input).map ([⟨quoted, read.reverse⟩] :: ·)
    else readFrom format .plain quoted (c :: read) input

def read (format : Format α) (input : List α) : Option (List (List (Field α))) :=
  readFrom format .start false [] input

/-! ### Writing -/

def renderField (format : Format α) (field : Field α) : List α :=
  if field.quoted then format.quote :: Quote.double format.quote field.text ++ [format.quote]
  else field.text

def Field.Valid (format : Format α) (field : Field α) : Prop :=
  field.quoted = false →
    ∀ c ∈ field.text, c ≠ format.quote ∧ c ≠ format.delimiter ∧ c ≠ format.newline

def renderRecord (format : Format α) : List (Field α) → List α
  | [] => [format.newline]
  | [field] => renderField format field ++ [format.newline]
  | field :: record => renderField format field ++ format.delimiter :: renderRecord format record

/-! ### What was written is read back -/

variable (format : Format α)

theorem readFrom_cons (mode : Mode) (quoted : Bool) (read : List α) (c : α) (input : List α) :
    readFrom format mode quoted read (c :: input) =
      if mode = .inQuotes then
        if c = format.quote then readFrom format .afterQuote quoted read input
        else readFrom format .inQuotes quoted (c :: read) input
      else if mode = .afterQuote ∧ c = format.quote then
        readFrom format .inQuotes quoted (c :: read) input
      else if c = format.quote then readFrom format .inQuotes true read input
      else if c = format.delimiter then
        (readFrom format .plain false [] input).map (addField ⟨quoted, read.reverse⟩)
      else if c = format.newline then
        (readFrom format .start false [] input).map ([⟨quoted, read.reverse⟩] :: ·)
      else readFrom format .plain quoted (c :: read) input := by
  cases mode <;> rfl

/- Up to the quote that may close. -/
theorem readFrom_double (quoted : Bool) (text read rest : List α) :
    readFrom format .inQuotes quoted read
        (Quote.double format.quote text ++ format.quote :: rest) =
      readFrom format .afterQuote quoted (text.reverse ++ read) rest := by
  induction text generalizing read with
  | nil => simp [Quote.double, readFrom]
  | cons c text ih =>
    by_cases hc : c = format.quote
    · rw [Quote.double, if_pos hc, List.cons_append, List.cons_append, readFrom_cons,
        if_pos rfl, if_pos rfl, readFrom_cons, if_neg (by simp), if_pos ⟨rfl, rfl⟩, ih, hc]
      simp
    · rw [Quote.double, if_neg hc, List.cons_append, readFrom_cons, if_pos rfl, if_neg hc, ih]
      simp

/- Characters that are not special. -/
theorem readFrom_plain (mode : Mode) (hmode : mode = .start ∨ mode = .plain) (quoted : Bool)
    (c : α) (text read rest : List α) (h : ∀ d ∈ c :: text,
      d ≠ format.quote ∧ d ≠ format.delimiter ∧ d ≠ format.newline) :
    readFrom format mode quoted read (c :: text ++ rest) =
      readFrom format .plain quoted ((c :: text).reverse ++ read) rest := by
  obtain ⟨hquote, hdelimiter, hnewline⟩ := h c (by simp)
  have hstep (input : List α) : readFrom format mode quoted read (c :: input) =
      readFrom format .plain quoted (c :: read) input := by
    rcases hmode with rfl | rfl <;> simp [readFrom, hquote, hdelimiter, hnewline]
  rw [List.cons_append, hstep]
  clear hstep hmode
  induction text generalizing c read with
  | nil => simp
  | cons d text ih =>
    obtain ⟨hquote', hdelimiter', hnewline'⟩ := h d (by simp)
    rw [List.cons_append, readFrom_cons, if_neg (by simp), if_neg (by simp), if_neg hquote',
      if_neg hdelimiter', if_neg hnewline',
      ih d (c :: read) (fun e he => h e (by simp [List.mem_cons.mp he])) hquote' hdelimiter'
        hnewline']
    simp

/- The end of a field, with or without quotes. -/
theorem readFrom_separator (mode : Mode) (hmode : mode ≠ .inQuotes) (quoted : Bool)
    (read rest : List α) (c : α) (hc : c = format.delimiter ∨ c = format.newline) :
    readFrom format mode quoted read (c :: rest) =
      if c = format.delimiter then
        (readFrom format .plain false [] rest).map (addField ⟨quoted, read.reverse⟩)
      else (readFrom format .start false [] rest).map ([⟨quoted, read.reverse⟩] :: ·) := by
  have hquote : c ≠ format.quote := by
    rcases hc with rfl | rfl
    · exact format.delimiter_ne_quote
    · exact format.newline_ne_quote
  rw [readFrom_cons, if_neg hmode, if_neg fun h => hquote h.2, if_neg hquote]
  split
  · rfl
  · next hdelimiter => rw [if_pos (hc.resolve_left hdelimiter)]

theorem readFrom_field (field : Field α) (mode : Mode) (hmode : mode = .start ∨ mode = .plain)
    (hvalid : field.Valid format) (c : α) (rest : List α)
    (hc : c = format.delimiter ∨ c = format.newline) :
    readFrom format mode false [] (renderField format field ++ c :: rest) =
      if c = format.delimiter then
        (readFrom format .plain false [] rest).map (addField field)
      else (readFrom format .start false [] rest).map ([field] :: ·) := by
  obtain ⟨quoted, text⟩ := field
  cases quoted with
  | true =>
    have hopen (input : List α) : readFrom format mode false [] (format.quote :: input) =
        readFrom format .inQuotes true [] input := by
      rcases hmode with rfl | rfl <;> simp [readFrom]
    rw [renderField, if_pos rfl, List.append_assoc, List.cons_append, hopen, List.singleton_append,
      readFrom_double, readFrom_separator format .afterQuote (by simp) _ _ _ c hc, List.append_nil,
      List.reverse_reverse]
  | false =>
    have htext := hvalid rfl
    rw [renderField, if_neg (by simp)]
    cases text with
    | nil =>
      exact readFrom_separator format mode (by rcases hmode with rfl | rfl <;> simp) _ _ _ c hc
    | cons d text =>
      rw [readFrom_plain format mode hmode _ d text [] _ htext,
        readFrom_separator format .plain (by simp) _ _ _ c hc, List.append_nil,
        List.reverse_reverse]

theorem readFrom_record (record : List (Field α)) (mode : Mode)
    (hmode : mode = .start ∨ mode = .plain) (hne : record ≠ [])
    (hvalid : ∀ field ∈ record, field.Valid format) (rest : List α) :
    readFrom format mode false [] (renderRecord format record ++ rest) =
      (readFrom format .start false [] rest).map (record :: ·) := by
  induction record generalizing mode with
  | nil => exact absurd rfl hne
  | cons field record ih =>
    have hfield := readFrom_field format field mode hmode (hvalid field (by simp))
    cases record with
    | nil =>
      rw [renderRecord, List.append_assoc, List.singleton_append,
        hfield _ _ (.inr rfl), if_neg format.newline_ne_delimiter]
    | cons next record =>
      rw [renderRecord, List.append_assoc, List.cons_append, hfield _ _ (.inl rfl), if_pos rfl,
        ih .plain (.inr rfl) (by simp) fun other hother => hvalid other (by simp [hother]),
        Option.map_map]
      · rfl
      · simp

theorem read_records (records : List (List (Field α)))
    (h : ∀ record ∈ records, record ≠ [] ∧ ∀ field ∈ record, field.Valid format) :
    read format (records.flatMap (renderRecord format)) = some records := by
  induction records with
  | nil => rfl
  | cons record records ih =>
    obtain ⟨hne, hvalid⟩ := h record (by simp)
    rw [read] at ih ⊢
    rw [List.flatMap_cons, readFrom_record format record .start (.inl rfl) hne hvalid,
      ih fun other hother => h other (by simp [hother])]
    rfl

end Csv
