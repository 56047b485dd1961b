import FsspecDb.Servers.Aggregates

/-!
# Indexes and constraints as declared

What a server knows of the indexes and constraints of its tables, and what should be reported of
them.
-/

namespace FsspecDb.Servers
open Text Bridge

/-- An index; a part that is an expression has no column. -/
structure ServerIndex where
  name : Str
  unique : Bool
  method : Str
  parts : List (Option Str)
  parts_ne : parts ≠ []

/-- A constraint with the schema and the table it stands in. -/
structure ServerConstraint where
  schema : Str
  table : Str
  name : Str
  kind : ConstraintKind
  columns : List Str
  references : Option (Str × Str)
  check : Option Str
  references_some : references.isSome ↔ kind = .ForeignKey
  check_some : check.isSome ↔ kind = .Check

def ServerIndex.columns (index : ServerIndex) : List Str := index.parts.filterMap id

def ServerIndex.declared (index : ServerIndex) : IndexInfo :=
  ⟨index.name, index.columns, index.unique, some index.method⟩

theorem ServerIndex.declared_iff (index : ServerIndex) (columns : List Str) :
    { index.declared with columns := columns } = index.declared ↔ columns = index.columns := by
  constructor
  · exact fun h => congrArg IndexInfo.columns h
  · intro h
    rw [h]
    rfl

/- `CONCAT(schema, '.', table)`. -/
def relationText (reference : Str × Str) : Str := reference.1 ++ '.' :: reference.2

def ServerConstraint.declared (c : ServerConstraint) : ConstraintInfo :=
  ⟨c.name, c.kind, c.columns, c.references.map relationText, c.check⟩

def ofRelation (constraints : List ServerConstraint) (schema relation : Str) :
    List ServerConstraint :=
  constraints.filter fun c => c.schema = schema ∧ c.table = relation

theorem mem_ofRelation (constraints : List ServerConstraint) (schema relation : Str)
    (c : ServerConstraint) : c ∈ ofRelation constraints schema relation ↔
      c ∈ constraints ∧ c.schema = schema ∧ c.table = relation := by
  rw [ofRelation, List.mem_filter, decide_eq_true_eq]

/-- The joined text of the names is not cut. -/
def Fits (limit : Nat) (names : List Str) : Prop :=
  (Utf8.encode (join [','] names)).length ≤ limit

theorem Fits.perm {limit : Nat} {names names' : List Str} (h : Fits limit names)
    (hperm : names.Perm names') : Fits limit names' := by
  by_cases hne : names' = []
  · rw [hne, Fits]
    exact Nat.zero_le limit
  · have hne' : names ≠ [] := fun hnil => hne (List.nil_perm.mp (hnil ▸ hperm))
    have hbytes := join_bytes names hne'
    rw [(hperm.map _).sum_nat, ← join_bytes names' hne] at hbytes
    unfold Fits at h ⊢
    omega

/-! ### Reports -/

/- A report of what is told of each element is complete where each is told as it is. -/
theorem report_iff {α β κ : Type} (items : List α) (told declared : α → β) (key : β → κ)
    (hkeys : (items.map fun x => key (declared x)).Nodup)
    (hkey : ∀ x ∈ items, key (told x) = key (declared x)) (report : List β)
    (hreport : report.Perm (items.map told)) :
    report.Perm (items.map declared) ↔ ∀ x ∈ items, told x = declared x := by
  constructor
  · intro h x hx
    have hmem : told x ∈ items.map declared :=
      h.mem_iff.mp (hreport.mem_iff.mpr (List.mem_map_of_mem hx))
    obtain ⟨y, hy, heq⟩ := List.mem_map.mp hmem
    have hsame : key (declared y) = key (declared x) := by rw [heq, hkey x hx]
    rw [← heq, List.inj_on_of_nodup_map hkeys hy hx hsame]
  · intro h
    rwa [List.map_congr_left h] at hreport

end FsspecDb.Servers
