import FsspecDb.Fs.Metadata
import Mathlib.Data.List.AList

/-!
# The introspection cache (fs.rs)

A map with times of insertion and an order of use. The value type is left open;
what the operations do to the entries is said once, in terms of `lookup`.
-/

namespace FsspecDb.Fs

/-- Times are in nanoseconds. -/
def SECOND : Nat := 1000000000

structure IntrospectionCacheOptions where
  ttl : Option Nat
  maxEntries : Option Nat
  deriving Repr, DecidableEq

def IntrospectionCacheOptions.default : IntrospectionCacheOptions :=
  ⟨some (300 * SECOND), some 1024⟩

structure CacheEntry (V : Type) where
  inserted : Nat
  value : V

structure IntrospectionCache (V : Type) where
  options : IntrospectionCacheOptions
  entries : AList fun _ : Str => CacheEntry V
  recency : List Str

namespace IntrospectionCache

variable {V : Type}

def new (options : IntrospectionCacheOptions) : IntrospectionCache V := ⟨options, ∅, []⟩

def expired (options : IntrospectionCacheOptions) (now : Nat) (entry : CacheEntry V) : Bool :=
  options.ttl.any fun ttl => decide (ttl ≤ now - entry.inserted)

def get (now : Nat) (key : Str) (cache : IntrospectionCache V) :
    Option V × IntrospectionCache V :=
  match cache.entries.lookup key with
  | none => (none, cache)
  | some entry =>
    let others := cache.recency.filter fun candidate => candidate ≠ key
    if expired cache.options now entry then
      (none, { cache with entries := cache.entries.erase key, recency := others })
    else (some entry.value, { cache with recency := others ++ [key] })

/- The `while` of `insert`: the least recently used entries go. -/
def evict (maxEntries : Nat) :
    List Str → (AList fun _ : Str => CacheEntry V) → (AList fun _ : Str => CacheEntry V) × List Str
  | [], entries => (entries, [])
  | oldest :: recency, entries =>
    if maxEntries < entries.keys.length then evict maxEntries recency (entries.erase oldest)
    else (entries, oldest :: recency)

def insert (now : Nat) (key : Str) (value : V) (cache : IntrospectionCache V) :
    IntrospectionCache V :=
  if cache.options.maxEntries = some 0 then cache
  else
    let recency := cache.recency.filter (fun candidate => candidate ≠ key) ++ [key]
    let entries := cache.entries.insert key ⟨now, value⟩
    match cache.options.maxEntries with
    | none => { cache with entries, recency }
    | some maxEntries =>
      let (entries, recency) := evict maxEntries recency entries
      { cache with entries, recency }

def clear (cache : IntrospectionCache V) : IntrospectionCache V :=
  { cache with entries := ∅, recency := [] }

/-! ### What the operations do to the entries -/

@[simp]
theorem get_options (now : Nat) (key : Str) (cache : IntrospectionCache V) :
    (cache.get now key).2.options = cache.options := by
  unfold get
  split
  · rfl
  · dsimp only; split <;> rfl

@[simp]
theorem insert_options (now : Nat) (key : Str) (value : V) (cache : IntrospectionCache V) :
    (cache.insert now key value).options = cache.options := by
  unfold insert
  split
  · rfl
  · dsimp only; split <;> rfl

/- A hit is an entry under the key that has not expired. -/
theorem get_hit (now : Nat) (key : Str) (cache : IntrospectionCache V) (value : V)
    (h : (cache.get now key).1 = some value) :
    ∃ entry, cache.entries.lookup key = some entry ∧ entry.value = value ∧
      expired cache.options now entry = false := by
  unfold get at h
  cases hentry : cache.entries.lookup key with
  | none => simp [hentry] at h
  | some entry =>
    cases hexp : expired cache.options now entry with
    | true => simp [hentry, hexp] at h
    | false =>
      simp [hentry, hexp] at h
      exact ⟨entry, rfl, h, hexp⟩

theorem get_lookup (now : Nat) (key : Str) (cache : IntrospectionCache V) (k : Str)
    (entry : CacheEntry V) (h : (cache.get now key).2.entries.lookup k = some entry) :
    cache.entries.lookup k = some entry := by
  unfold get at h
  split at h
  · exact h
  · dsimp only at h
    split at h
    · by_cases hk : k = key
      · rw [hk, AList.lookup_erase] at h
        exact absurd h (by simp)
      · rwa [AList.lookup_erase_ne hk] at h
    · exact h

theorem evict_lookup (maxEntries : Nat) (recency : List Str)
    (entries : AList fun _ : Str => CacheEntry V) (k : Str) (entry : CacheEntry V)
    (h : (evict maxEntries recency entries).1.lookup k = some entry) :
    entries.lookup k = some entry := by
  induction recency generalizing entries with
  | nil => exact h
  | cons oldest rest ih =>
    unfold evict at h
    split at h
    · have herased := ih (entries.erase oldest) h
      by_cases hk : k = oldest
      · rw [hk, AList.lookup_erase] at herased
        exact absurd herased (by simp)
      · rwa [AList.lookup_erase_ne hk] at herased
    · exact h

/- After an insert an entry is the new one or an old one. -/
theorem insert_lookup (now : Nat) (key : Str) (value : V) (cache : IntrospectionCache V) (k : Str)
    (entry : CacheEntry V) (h : (cache.insert now key value).entries.lookup k = some entry) :
    (k = key ∧ entry = ⟨now, value⟩) ∨ cache.entries.lookup k = some entry := by
  have hinsert (h : (cache.entries.insert key ⟨now, value⟩).lookup k = some entry) :
      (k = key ∧ entry = ⟨now, value⟩) ∨ cache.entries.lookup k = some entry := by
    by_cases hk : k = key
    · rw [hk, AList.lookup_insert] at h
      exact .inl ⟨hk, (Option.some.inj h).symm⟩
    · rw [AList.lookup_insert_ne hk] at h
      exact .inr h
  unfold insert at h
  split at h
  · exact .inr h
  · dsimp only at h
    split at h
    · exact hinsert h
    · exact hinsert (evict_lookup _ _ _ k entry h)

@[simp]
theorem clear_lookup (cache : IntrospectionCache V) (k : Str) :
    cache.clear.entries.lookup k = none := AList.lookup_empty k

/- Into a cleared cache an insert puts its entry, unless nothing may be cached. -/
theorem insert_cleared (now : Nat) (key : Str) (value : V) (cache : IntrospectionCache V)
    (hentries : cache.entries = ∅) (hrecency : cache.recency = [])
    (hmax : cache.options.maxEntries ≠ some 0) :
    (cache.insert now key value).entries.lookup key = some ⟨now, value⟩ := by
  have hnew : (cache.entries.insert key ⟨now, value⟩).lookup key = some ⟨now, value⟩ :=
    AList.lookup_insert _
  unfold insert
  rw [if_neg hmax, hrecency]
  dsimp only [List.filter_nil, List.nil_append]
  split
  · exact hnew
  · next maxEntries hsome =>
    have hpos : 0 < maxEntries := Nat.pos_of_ne_zero fun h => hmax (by rw [hsome, h])
    have hone : (cache.entries.insert key ⟨now, value⟩).keys.length = 1 := by
      rw [hentries, AList.keys_insert]
      rfl
    have hkeep : ¬ maxEntries < (cache.entries.insert key ⟨now, value⟩).keys.length := by omega
    simp only [evict, if_neg hkeep]
    exact hnew

end IntrospectionCache

end FsspecDb.Fs
