import FsspecDb.Text.Split
import FsspecDb.Types
import Mathlib.Data.List.Nodup

/-!
# The relations that a view depends on (sql.rs, `view_dependencies`)

The visitor of a parsed definition prints each relation part by part, with the quotes taken
off, and joins the parts by dots.
-/

namespace FsspecDb.Sql
open Text

/-- An identifier of a parsed statement, and what its `to_string` prints. -/
structure Ident where
  value : Str
  text : Str
  deriving Repr, DecidableEq

/-- The name of a relation, its own part last. -/
abbrev ObjectName := List Ident

def isQuote (c : Char) : Bool := c = '"' || c = '\x60' || c = '\''

/-- `str::trim_matches` on the three quotes. -/
def trimQuotes (s : Str) : Str := (s.dropWhile isQuote).rdropWhile isQuote

def rendered (name : ObjectName) : Str := join ['.'] (name.map fun part => trimQuotes part.text)

/- The closure that `visit_relations` calls. -/
def visit (tables : List Str) (name : ObjectName) : List Str :=
  if rendered name ≠ [] ∧ rendered name ∉ tables then tables ++ [rendered name] else tables

/-- `visitRelations` is the parser with the visitor: the names of the relations in a text,
or none where the text is not parsed. -/
def viewDependencies (visitRelations : Dialect → Str → Option (List ObjectName))
    (dialect : Dialect) (definition : Str) : List Str :=
  let definition := trim definition
  if definition = [] then []
  else
    match visitRelations dialect definition with
    | none => []
    | some names => names.foldl visit []

/-! ### What the visitor collects -/

theorem mem_foldl_visit (names : List ObjectName) (tables : List Str) (table : Str) :
    table ∈ names.foldl visit tables ↔
      table ∈ tables ∨ table ≠ [] ∧ ∃ name ∈ names, rendered name = table := by
  induction names generalizing tables with
  | nil => simp
  | cons name names ih =>
    have hvisit : table ∈ visit tables name ↔
        table ∈ tables ∨ table ≠ [] ∧ rendered name = table := by
      rw [visit]
      split_ifs with hnew
      · rw [List.mem_append, List.mem_singleton]
        constructor
        · intro h
          rcases h with h | rfl
          · exact .inl h
          · exact .inr ⟨hnew.1, rfl⟩
        · intro h
          rcases h with h | ⟨_, rfl⟩
          · exact .inl h
          · exact .inr rfl
      · refine ⟨.inl, fun h => ?_⟩
        rcases h with h | ⟨hne, rfl⟩
        · exact h
        · rw [not_and_not_right] at hnew
          exact hnew hne
    simp only [List.foldl_cons, ih, hvisit, List.mem_cons, exists_eq_or_imp, or_assoc, and_or_left]

theorem nodup_foldl_visit (names : List ObjectName) (tables : List Str) (h : tables.Nodup) :
    (names.foldl visit tables).Nodup := by
  induction names generalizing tables with
  | nil => exact h
  | cons name names ih =>
    rw [List.foldl_cons]
    apply ih
    rw [visit]
    split_ifs with hnew
    · rw [← List.concat_eq_append]
      exact h.concat hnew.2
    · exact h

end FsspecDb.Sql
