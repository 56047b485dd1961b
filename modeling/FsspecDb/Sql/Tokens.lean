import FsspecDb.Error
import FsspecDb.Lib.Mealy
import FsspecDb.Lib.Quote

/-!
# Tokens of a statement

How a database cuts the text of a statement into words, quoted names, literals and
single characters. The lexer is a machine that reads one character after the other.
-/

namespace FsspecDb.Sql

def isWordChar (c : Char) : Bool := c.isAlphanum || c = '_'

inductive Token where
  | word (text : Str)
  | ident (name : Str)
  | literal (text : Str)
  | symbol (c : Char)
  deriving Repr, DecidableEq

/-- Where the lexer is; what it has read of a token stands in reverse order. After
`closed` it depends on the next character whether the quote has ended the token. -/
inductive LexMode where
  | blank
  | word (read : Str)
  | quoted (close : Char) (read : Str)
  | closed (close : Char) (read : Str)
  deriving Repr, DecidableEq

/-- A quoted token; `q` is the quote of names. -/
def quotedToken (q close : Char) (text : Str) : Token :=
  if close = q then .ident text else .literal text

/-- The character that starts a token, or stands for itself. -/
def opening (q c : Char) : List Token × LexMode :=
  if c = ' ' then ([], .blank)
  else if c = q ∨ c = '\'' ∨ c = '"' then ([], .quoted c [])
  else if isWordChar c then ([], .word [c])
  else ([.symbol c], .blank)

def lexStep (q : Char) (mode : LexMode) (c : Char) : List Token × LexMode :=
  match mode with
  | .blank => opening q c
  | .word read =>
    if isWordChar c then ([], .word (c :: read))
    else (.word read.reverse :: (opening q c).1, (opening q c).2)
  | .quoted close read =>
    if c = close then ([], .closed close read) else ([], .quoted close (c :: read))
  | .closed close read =>
    if c = close then ([], .quoted close (close :: read))
    else (quotedToken q close read.reverse :: (opening q c).1, (opening q c).2)

/-- The end of the text, which no quote may be left open at. -/
def lexEnd (q : Char) : LexMode → Option (List Token)
  | .blank => some []
  | .word read => some [.word read.reverse]
  | .quoted _ _ => none
  | .closed close read => some [quotedToken q close read.reverse]

def lexFrom (q : Char) (mode : LexMode) (text : Str) : Option (List Token) :=
  (lexEnd q (Mealy.run (lexStep q) mode text).2).map fun tokens =>
    (Mealy.run (lexStep q) mode text).1.flatten ++ tokens

/-- The tokens of a statement of a database that quotes names with `q`. -/
def lex (q : Char) (text : Str) : Option (List Token) := lexFrom q .blank text

/-! ### Lexing one token -/

theorem lexFrom_cons (q : Char) (mode : LexMode) (c : Char) (text : Str) :
    lexFrom q mode (c :: text) =
      (lexFrom q (lexStep q mode c).2 text).map fun tokens => (lexStep q mode c).1 ++ tokens := by
  simp only [lexFrom, Mealy.run_cons, Option.map_map, Function.comp_def, List.flatten_cons,
    List.append_assoc]

theorem lex_nil (q : Char) : lex q [] = some [] := rfl

/- A quoted text up to its closing quote. -/
theorem lexFrom_quoted (q close : Char) (name read text : Str) :
    lexFrom q (.quoted close read) (Quote.double close name ++ close :: text) =
      lexFrom q (.closed close (name.reverse ++ read)) text := by
  induction name generalizing read with
  | nil =>
    rw [Quote.double, List.nil_append, lexFrom_cons, lexStep, if_pos rfl]
    simp
  | cons c name ih =>
    by_cases hc : c = close
    · rw [Quote.double, if_pos hc, List.cons_append, List.cons_append, lexFrom_cons, lexStep,
        if_pos rfl, lexFrom_cons, lexStep, if_pos rfl, ih, hc]
      simp
    · rw [Quote.double, if_neg hc, List.cons_append, lexFrom_cons, lexStep, if_neg hc, ih]
      simp

theorem lexFrom_closed (q close : Char) (read text : Str) (h : text.head? ≠ some close) :
    lexFrom q (.closed close read) text =
      (lex q text).map fun tokens => quotedToken q close read.reverse :: tokens := by
  cases text with
  | nil => rfl
  | cons c text =>
    have hc : c ≠ close := by simpa using h
    have hstep : lexStep q (.closed close read) c =
        (quotedToken q close read.reverse :: (opening q c).1, (opening q c).2) := if_neg hc
    rw [lex, lexFrom_cons, lexFrom_cons, hstep, Option.map_map]
    rfl

theorem lex_quoted (q close : Char) (name text : Str) (hopen : close = q ∨ close = '\'')
    (hspace : q ≠ ' ') (h : text.head? ≠ some close) :
    lex q (close :: Quote.double close name ++ close :: text) =
      (lex q text).map fun tokens => quotedToken q close name :: tokens := by
  have hstep : lexStep q .blank close = ([], .quoted close []) := by
    have hblank : close ≠ ' ' := by
      rcases hopen with rfl | rfl
      · exact hspace
      · decide
    rw [lexStep, opening, if_neg hblank, if_pos (by tauto)]
  rw [lex, List.cons_append, lexFrom_cons, hstep, lexFrom_quoted, List.append_nil,
    lexFrom_closed q close _ text h, List.reverse_reverse]
  simp only [List.nil_append, Option.map_id']

end FsspecDb.Sql
