import FsspecDb.Error
import FsspecDb.Lib.Quote

/-!
# Guarded text

A scanner that knows quotes, comment starts, separators and parentheses, and nothing else of
SQL. Guarded text ends outside quotes with its parentheses balanced, so that what stands
before and after it is scanned as if it were not there.
-/

namespace FsspecDb.Sql

/- Open parentheses, the quote that is open, and the last character. -/
structure Scan where
  depth : Nat
  quote : Option Char
  last : Char
  deriving Repr, DecidableEq

/- `q` is the quote of names; a quote written twice closes and opens again. -/
def opensQuote (q c : Char) : Bool := c = q || c = '\'' || c = '"'

/- `none` at a separator, at the start of a comment, and at a parenthesis that closes none. -/
def scanStep (q : Char) (s : Scan) (c : Char) : Option Scan :=
  match s.quote with
  | some close => some ⟨s.depth, if c = close then none else some close, c⟩
  | none =>
    if c = ';' ∨ (s.last = '-' ∧ c = '-') ∨ (s.last = '/' ∧ c = '*') then none
    else if c = '(' then some ⟨s.depth + 1, none, c⟩
    else if c = ')' then if s.depth = 0 then none else some ⟨s.depth - 1, none, c⟩
    else some ⟨s.depth, if opensQuote q c then some c else none, c⟩

def scan (q : Char) (s : Scan) (text : Str) : Option Scan := text.foldlM (scanStep q) s

/- Behind a blank, where text that starts with `-` or `*` starts no comment. -/
def Scan.start : Scan := ⟨0, none, ' '⟩

/- Scanned to its end, outside quotes and with no parenthesis left open. -/
def Guarded (q : Char) (text : Str) : Prop :=
  (scan q .start text).any (fun s => s.depth = 0 && s.quote = none) = true

instance (q : Char) (text : Str) : Decidable (Guarded q text) :=
  inferInstanceAs (Decidable (_ = true))

theorem guarded_iff (q : Char) (text : Str) :
    Guarded q text ↔ ∃ last, scan q .start text = some ⟨0, none, last⟩ := by
  unfold Guarded
  cases hscan : scan q .start text with
  | none => simp
  | some s =>
    obtain ⟨depth, quote, last⟩ := s
    simp

theorem scan_cons (q : Char) (s : Scan) (c : Char) (text : Str) :
    scan q s (c :: text) = (scanStep q s c).bind fun next => scan q next text := rfl

theorem scan_append (q : Char) (s : Scan) (before after : Str) :
    scan q s (before ++ after) = (scan q s before).bind fun next => scan q next after :=
  List.foldlM_append

/-! ### Text that leaves no trace -/

/- From outside quotes to outside quotes, wherever it stands. -/
def Neutral (q : Char) (text : Str) : Prop :=
  ∀ depth last, last ≠ '-' → last ≠ '/' → ∃ next, next ≠ '-' ∧ next ≠ '/' ∧
    scan q ⟨depth, none, last⟩ text = some ⟨depth, none, next⟩

theorem neutral_nil (q : Char) : Neutral q [] :=
  fun _ last hdash hslash => ⟨last, hdash, hslash, rfl⟩

theorem Neutral.append {q : Char} {before after : Str} (h : Neutral q before)
    (k : Neutral q after) : Neutral q (before ++ after) := by
  intro depth last hdash hslash
  obtain ⟨middle, hdash', hslash', hbefore⟩ := h depth last hdash hslash
  obtain ⟨next, hnextDash, hnextSlash, hafter⟩ := k depth middle hdash' hslash'
  refine ⟨next, hnextDash, hnextSlash, ?_⟩
  rw [scan_append, hbefore, Option.bind_some, hafter]

theorem Neutral.guarded {q : Char} {text : Str} (h : Neutral q text) : Guarded q text := by
  obtain ⟨next, -, -, hscan⟩ := h 0 ' ' (by decide) (by decide)
  exact (guarded_iff q text).mpr ⟨next, hscan⟩

/- The characters that mean something to the scanner. -/
def marks : List Char := [';', '-', '/', '*', '(', ')', '\'', '"', '\x60']

theorem scanStep_plain {q c : Char} (hq : q ∈ marks) (hc : c ∉ marks) (depth : Nat)
    (last : Char) : scanStep q ⟨depth, none, last⟩ c = some ⟨depth, none, c⟩ := by
  have hne (d : Char) (hd : d ∈ marks) : c ≠ d := fun heq => hc (heq ▸ hd)
  have hquote : opensQuote q c = false := by
    simp [opensQuote, hne q hq, hne '\'' (by decide), hne '"' (by decide)]
  have hfine : ¬ (c = ';' ∨ (last = '-' ∧ c = '-') ∨ (last = '/' ∧ c = '*')) := by
    simp [hne ';' (by decide), hne '-' (by decide), hne '*' (by decide)]
  simp only [scanStep, if_neg hfine, if_neg (hne '(' (by decide)), if_neg (hne ')' (by decide)),
    hquote, Bool.false_eq_true, if_false]

theorem neutral_plain {q : Char} (hq : q ∈ marks) (text : Str) (h : ∀ c ∈ text, c ∉ marks) :
    Neutral q text := by
  induction text with
  | nil => exact neutral_nil q
  | cons c text ih =>
    intro depth last _ _
    have hc := h c (by simp)
    have hne (d : Char) (hd : d ∈ marks) : c ≠ d := fun heq => hc (heq ▸ hd)
    obtain ⟨next, hdash, hslash, hscan⟩ := ih (fun d hd => h d (by simp [hd])) depth c
      (hne '-' (by decide)) (hne '/' (by decide))
    refine ⟨next, hdash, hslash, ?_⟩
    rw [scan_cons, scanStep_plain hq hc, Option.bind_some, hscan]

/- Behind a blank the last character of what came before no longer matters. -/
theorem scan_blank {q : Char} (hq : q ∈ marks) (text : Str) (h : Neutral q text) (depth : Nat)
    (last : Char) :
    ∃ next, scan q ⟨depth, none, last⟩ (' ' :: text) = some ⟨depth, none, next⟩ := by
  obtain ⟨next, -, -, hscan⟩ := h depth ' ' (by decide) (by decide)
  refine ⟨next, ?_⟩
  rw [scan_cons, scanStep_plain hq (by decide), Option.bind_some, hscan]

/-! ### Quoted names -/

/- A doubled name is scanned inside its quotes. -/
theorem scan_double (q : Char) (hq : q = '"' ∨ q = '\x60') (name rest : Str) (depth : Nat)
    (last : Char) : ∃ next, scan q ⟨depth, some q, last⟩ (Quote.double q name ++ rest) =
      scan q ⟨depth, some q, next⟩ rest := by
  induction name generalizing last with
  | nil => exact ⟨last, rfl⟩
  | cons c name ih =>
    obtain ⟨next, hscan⟩ := ih c
    refine ⟨next, ?_⟩
    by_cases hc : c = q
    · subst hc
      have hclose : scanStep c ⟨depth, some c, last⟩ c = some ⟨depth, none, c⟩ := by
        simp [scanStep]
      have hopen : scanStep c ⟨depth, none, c⟩ c = some ⟨depth, some c, c⟩ := by
        rcases hq with rfl | rfl <;> simp [scanStep, opensQuote]
      rw [Quote.double, if_pos rfl, List.cons_append, List.cons_append, scan_cons, hclose,
        Option.bind_some, scan_cons, hopen, Option.bind_some, hscan]
    · have hinside : scanStep q ⟨depth, some q, last⟩ c = some ⟨depth, some q, c⟩ := by
        simp [scanStep, hc]
      rw [Quote.double, if_neg hc, List.cons_append, scan_cons, hinside, Option.bind_some, hscan]

theorem neutral_quoted (q : Char) (hq : q = '"' ∨ q = '\x60') (name : Str) :
    Neutral q (q :: Quote.double q name ++ [q]) := by
  intro depth last hdash hslash
  obtain ⟨next, hscan⟩ := scan_double q hq name [q] depth q
  have hopen : scanStep q ⟨depth, none, last⟩ q = some ⟨depth, some q, q⟩ := by
    rcases hq with rfl | rfl <;> simp [scanStep, opensQuote]
  have hclose : scan q ⟨depth, some q, next⟩ [q] = some ⟨depth, none, q⟩ := by
    simp [scan, scanStep]
  refine ⟨q, ?_, ?_, ?_⟩
  · rcases hq with rfl | rfl <;> decide
  · rcases hq with rfl | rfl <;> decide
  · rw [List.cons_append, scan_cons, hopen, Option.bind_some, hscan, hclose]

end FsspecDb.Sql
