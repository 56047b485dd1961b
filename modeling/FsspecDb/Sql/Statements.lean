import FsspecDb.Lib.Quote
import FsspecDb.Text
import FsspecDb.Types

/-!
# Generated statements (sql.rs)

Names are quoted by doubling, so what stands in a statement is `Quote.double` of the
name between two quote characters.
-/

namespace FsspecDb.Sql
open Text

structure SelectOptions where
  columns : List Str
  limit : Option UInt64
  whereClause : Option Str
  deriving Repr, DecidableEq

/-- `{:?}` of a character inside a string. Characters above ASCII stand for themselves. -/
def debugChar (c : Char) : Str :=
  if c = '\x00' then "\\0".toList
  else if c = '\t' then "\\t".toList
  else if c = '\r' then "\\r".toList
  else if c = '\n' then "\\n".toList
  else if c = '"' ∨ c = '\\' then ['\\', c]
  else if c.toNat < 0x20 ∨ c.toNat = 0x7F then
    "\\u".toList ++ [Char.ofNat 0x7B] ++ Nat.toDigits 16 c.toNat ++ [Char.ofNat 0x7D]
  else [c]

def debugStr (s : Str) : Str := '"' :: s.flatMap debugChar ++ ['"']

/-- The character that `quote_identifier` puts around a name. -/
def identifierQuote : Dialect → Char
  | .MySql => '\x60'
  | _ => '"'

def quoteIdentifier (dialect : Dialect) (identifier : Str) : Except DbError Str :=
  if identifier = [] ∨ '\x00' ∈ identifier then
    .error (.InvalidArgument ("invalid SQL identifier: ".toList ++ debugStr identifier))
  else
    let q := identifierQuote dialect
    .ok (q :: replace identifier q [q, q] ++ [q])

def qualifiedName (dialect : Dialect) (schema relation : Str) : Except DbError Str := do
  let schema ← quoteIdentifier dialect schema
  let relation ← quoteIdentifier dialect relation
  .ok (schema ++ '.' :: relation)

def placeholder (dialect : Dialect) (index : Nat) : Str :=
  match dialect with
  | .Postgres => '$' :: Nat.toDigits 10 index
  | _ => ['?']

def whereText (whereClause : Option Str) : Str :=
  whereClause.elim [] fun predicate => " WHERE ".toList ++ predicate

def limitText (limit : Option UInt64) : Str :=
  limit.elim [] fun limit => " LIMIT ".toList ++ Nat.toDigits 10 limit.toNat

def selectedColumns (dialect : Dialect) (columns : List Str) : Except DbError Str :=
  if columns = [] then .ok ['*']
  else (columns.mapM (quoteIdentifier dialect)).map (join ", ".toList)

def selectSql (dialect : Dialect) (schema relation : Str) (options : SelectOptions) :
    Except DbError Str := do
  let columns ← selectedColumns dialect options.columns
  let relation ← qualifiedName dialect schema relation
  .ok ("SELECT ".toList ++ columns ++ " FROM ".toList ++ relation ++
    whereText options.whereClause ++ limitText options.limit)

/-- The groups of placeholders, counted on from `index`. -/
def valueGroups (dialect : Dialect) (columnCount : Nat) : Nat → Nat → List Str
  | _, 0 => []
  | index, rows + 1 =>
    let row := join ", ".toList ((List.range' index columnCount).map (placeholder dialect))
    ('(' :: row ++ [')']) :: valueGroups dialect columnCount (index + columnCount) rows

def insertSql (dialect : Dialect) (schema relation : Str) (columns : List Str) (rows : Nat) :
    Except DbError Str :=
  if columns = [] then .error (.InvalidArgument "INSERT requires at least one column".toList)
  else if rows = 0 then .error (.InvalidArgument "INSERT requires at least one row".toList)
  else do
    let relation ← qualifiedName dialect schema relation
    let columnList ← columns.mapM (quoteIdentifier dialect)
    let values := valueGroups dialect columns.length 1 rows
    .ok ("INSERT INTO ".toList ++ relation ++ " (".toList ++ join ", ".toList columnList ++
      ") VALUES ".toList ++ join ", ".toList values)

/-! ### Quoted names -/

theorem replace_doubled (s : Str) (q : Char) : replace s q [q, q] = Quote.double q s := by
  induction s with
  | nil => rfl
  | cons c s ih =>
    rw [Quote.double, replace, List.flatMap_cons, ← ih, ← replace]
    split <;> rfl

def ValidIdentifier (identifier : Str) : Prop := identifier ≠ [] ∧ '\x00' ∉ identifier

instance (identifier : Str) : Decidable (ValidIdentifier identifier) :=
  inferInstanceAs (Decidable (_ ∧ _))

theorem quoteIdentifier_eq_ok_iff (dialect : Dialect) (identifier text : Str) :
    quoteIdentifier dialect identifier = .ok text ↔
      ValidIdentifier identifier ∧
        text = identifierQuote dialect :: Quote.double (identifierQuote dialect) identifier ++
          [identifierQuote dialect] := by
  unfold quoteIdentifier
  split
  · next h =>
    simp only [reduceCtorEq, false_iff, not_and]
    intro hgiven
    obtain ⟨hne, hnul⟩ := hgiven
    exact absurd h (not_or.mpr ⟨hne, hnul⟩)
  · next h =>
    simp only [replace_doubled, Except.ok.injEq]
    exact ⟨fun heq => ⟨not_or.mp h, heq.symm⟩, fun hand => hand.2.symm⟩

example : (insertSql .Postgres "public".toList "a\"b".toList ["x".toList, "y".toList] 2).toOption =
    some "INSERT INTO \"public\".\"a\"\"b\" (\"x\", \"y\") VALUES ($1, $2), ($3, $4)".toList := by
  decide

end FsspecDb.Sql
