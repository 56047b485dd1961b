import FsspecDb.Fs.Recency

/-!
# The eviction loop of the introspection cache (fs.rs)

`insert` loops on the size of the map and shrinks the deque, so the loop ends only
if the two hold the same keys. Here it runs with a number of turns allowed, a
turn on an empty deque changing nothing, as in the source.
-/

namespace FsspecDb.Fs.IntrospectionCache

variable {V : Type}

/-! ### The loop -/

/- The map and the deque inside `insert`, and the keys popped so far. -/
structure Eviction (V : Type) where
  entries : AList fun _ : Str => CacheEntry V
  recency : List Str
  popped : List Str

def Eviction.turn (e : Eviction V) : Eviction V :=
  match e.recency with
  | [] => e
  | oldest :: recency => ⟨e.entries.erase oldest, recency, e.popped ++ [oldest]⟩

/- `none` when the loop is not over after `fuel` turns. -/
def Eviction.loop (maxEntries : Nat) : Nat → Eviction V → Option (Eviction V)
  | 0, e => if maxEntries < e.entries.keys.length then none else some e
  | fuel + 1, e =>
    if maxEntries < e.entries.keys.length then Eviction.loop maxEntries fuel e.turn else some e

/- `insert` with its loop; beside the cache, the keys that the loop popped. -/
def insertWithin (fuel now : Nat) (key : Str) (value : V) (cache : IntrospectionCache V) :
    Option (IntrospectionCache V × List Str) :=
  if cache.options.maxEntries = some 0 then some (cache, [])
  else
    let recency := cache.recency.filter (fun candidate => candidate ≠ key) ++ [key]
    let entries := cache.entries.insert key ⟨now, value⟩
    match cache.options.maxEntries with
    | none => some ({ cache with entries, recency }, [])
    | some maxEntries =>
      (Eviction.loop maxEntries fuel ⟨entries, recency, []⟩).map fun e =>
        ({ cache with entries := e.entries, recency := e.recency }, e.popped)

def stepWithin (fuel : Nat) (cache : IntrospectionCache V) (call : Nat × Lru.Call Str V) :
    Option (IntrospectionCache V) :=
  match call.2 with
  | .get key => some (cache.get call.1 key).2
  | .insert key value => (cache.insertWithin fuel call.1 key value).map Prod.fst
  | .clear => some cache.clear

/- A run of calls, each insert allowed `fuel` turns of its loop. -/
def runWithin (fuel : Nat) (cache : IntrospectionCache V) (calls : List (Nat × Lru.Call Str V)) :
    Option (IntrospectionCache V) :=
  calls.foldlM (stepWithin fuel) cache

/-! ### The invariant -/

/- The deque holds each key of the map once and no other key. -/
structure Tracked (entries : AList fun _ : Str => CacheEntry V) (recency : List Str) : Prop where
  once : recency.Nodup
  same : ∀ key, key ∈ recency ↔ key ∈ entries

structure Sound (cache : IntrospectionCache V) : Prop where
  tracked : Tracked cache.entries cache.recency
  bounded : ∀ n, cache.options.maxEntries = some n → cache.entries.keys.length ≤ n

theorem tracked_empty : Tracked (V := V) ∅ [] :=
  ⟨List.nodup_nil, fun key => iff_of_false List.not_mem_nil (AList.notMem_empty key)⟩

theorem Tracked.length {entries : AList fun _ : Str => CacheEntry V} {recency : List Str}
    (h : Tracked entries recency) : recency.length = entries.keys.length := by
  apply List.Perm.length_eq
  apply (List.perm_ext_iff_of_nodup h.once entries.nodupKeys).mpr
  intro key
  rw [h.same, AList.mem_keys]
  rfl

theorem Tracked.others {entries : AList fun _ : Str => CacheEntry V} {recency : List Str}
    (h : Tracked entries recency) (key : Str) :
    Tracked (entries.erase key) (recency.filter fun candidate => candidate ≠ key) := by
  refine ⟨h.once.filter _, fun k => ?_⟩
  rw [List.mem_filter, decide_eq_true_iff, h.same, AList.mem_erase]
  exact And.comm

/- The key goes to the back of the deque, and the map holds it and the others. -/
theorem Tracked.back {entries after : AList fun _ : Str => CacheEntry V} {recency : List Str}
    (h : Tracked entries recency) (key : Str) (hafter : ∀ k, k ∈ after ↔ k = key ∨ k ∈ entries) :
    Tracked after (recency.filter (fun candidate => candidate ≠ key) ++ [key]) := by
  refine ⟨?_, fun k => ?_⟩
  · rw [List.nodup_append]
    refine ⟨h.once.filter _, List.nodup_singleton key, ?_⟩
    intro candidate hcandidate last hlast
    rw [List.mem_singleton.mp hlast]
    exact of_decide_eq_true (List.mem_filter.mp hcandidate).2
  · rw [List.mem_append, List.mem_filter, decide_eq_true_iff, h.same, List.mem_singleton, hafter]
    by_cases hk : k = key <;> simp [hk]

theorem Tracked.pop {entries : AList fun _ : Str => CacheEntry V} {oldest : Str}
    {recency : List Str} (h : Tracked entries (oldest :: recency)) :
    Tracked (entries.erase oldest) recency := by
  have hothers := h.others oldest
  have hnotin := (List.nodup_cons.mp h.once).1
  have hrest : (oldest :: recency).filter (fun candidate => candidate ≠ oldest) = recency := by
    rw [List.filter_cons_of_neg (by simp)]
    apply List.filter_eq_self.mpr
    intro candidate hcandidate
    exact decide_eq_true fun heq => hnotin (heq ▸ hcandidate)
  rwa [hrest] at hothers

theorem Sound.new (options : IntrospectionCacheOptions) : Sound (V := V) (new options) :=
  ⟨tracked_empty, fun n _ => Nat.zero_le n⟩

theorem Sound.clear (cache : IntrospectionCache V) : Sound cache.clear :=
  ⟨tracked_empty, fun n _ => Nat.zero_le n⟩

/- A hit moves the key to the back, an expired entry leaves both. -/
theorem Sound.get {cache : IntrospectionCache V} (h : Sound cache) (now : Nat) (key : Str) :
    Sound (cache.get now key).2 := by
  unfold IntrospectionCache.get
  cases hentry : cache.entries.lookup key with
  | none => exact h
  | some entry =>
    have hmem : key ∈ cache.entries := by
      rw [← AList.lookup_isSome, hentry]
      rfl
    dsimp only
    split
    · refine ⟨h.tracked.others key, fun n hn => ?_⟩
      have hsize := (h.tracked.others key).length
      have hfewer := List.length_filter_le (fun candidate => decide (candidate ≠ key)) cache.recency
      have hbefore := h.tracked.length
      have hbound := h.bounded n hn
      dsimp only
      omega
    · refine ⟨h.tracked.back key fun k => ?_, h.bounded⟩
      constructor
      · exact .inr
      · intro hk
        rcases hk with rfl | hk
        · exact hmem
        · exact hk

/-! ### One insert -/

theorem mem_inserted (entries : AList fun _ : Str => CacheEntry V) (key : Str)
    (entry : CacheEntry V) (k : Str) : k ∈ entries.insert key entry ↔ k = key ∨ k ∈ entries :=
  AList.mem_insert entries

/- What an insert does, the loop included: after at most one turn it is the structural `insert`
of the other modules. -/
structure Inserted (now : Nat) (key : Str) (value : V) (cache : IntrospectionCache V)
    (popped : List Str) : Prop where
  terminates : ∀ fuel,
    cache.insertWithin (fuel + 1) now key value = some (cache.insert now key value, popped)
  atMostOne : popped.length ≤ 1
  kept : key ∉ popped
  stored : cache.options.maxEntries ≠ some 0 →
    (cache.insert now key value).entries.lookup key = some ⟨now, value⟩
  sound : Sound (cache.insert now key value)

/- Nothing to pop: the map fits with the new key in it. -/
theorem loop_done (maxEntries fuel : Nat) (entries : AList fun _ : Str => CacheEntry V)
    (recency popped : List Str) (hfits : entries.keys.length ≤ maxEntries) :
    Eviction.loop maxEntries fuel ⟨entries, recency, popped⟩ = some ⟨entries, recency, popped⟩ := by
  cases fuel <;> simp only [Eviction.loop, if_neg (Nat.not_lt.mpr hfits)]

theorem evict_done (maxEntries : Nat) (recency : List Str)
    (entries : AList fun _ : Str => CacheEntry V) (hfits : entries.keys.length ≤ maxEntries) :
    evict maxEntries recency entries = (entries, recency) := by
  cases recency with
  | nil => rfl
  | cons oldest recency => simp only [evict, if_neg (Nat.not_lt.mpr hfits)]

/- One key too many, and the front of the deque is another key than the last. -/
theorem loop_one (maxEntries fuel : Nat) (entries : AList fun _ : Str => CacheEntry V)
    (oldest : Str) (recency : List Str) (h : Tracked entries (oldest :: recency))
    (hone : entries.keys.length = maxEntries + 1) :
    Eviction.loop maxEntries (fuel + 1) ⟨entries, oldest :: recency, []⟩ =
        some ⟨entries.erase oldest, recency, [oldest]⟩ ∧
      evict maxEntries (oldest :: recency) entries = (entries.erase oldest, recency) ∧
      (entries.erase oldest).keys.length ≤ maxEntries := by
  have hover : maxEntries < entries.keys.length := by omega
  have hsize := h.length
  have hrest := h.pop.length
  rw [List.length_cons] at hsize
  have hfits : (entries.erase oldest).keys.length ≤ maxEntries := by omega
  refine ⟨?_, ?_, hfits⟩
  · simp only [Eviction.loop, if_pos hover, Eviction.turn, List.nil_append]
    exact loop_done maxEntries fuel _ _ _ hfits
  · simp only [evict, if_pos hover]
    exact evict_done maxEntries recency _ hfits

/- With no room at all nothing is cached, and the loop is not reached. -/
theorem insert_nowhere {cache : IntrospectionCache V} (h : Sound cache) (now : Nat) (key : Str)
    (value : V) (hmax : cache.options.maxEntries = some 0) : Inserted now key value cache [] := by
  have hinsert : cache.insert now key value = cache := if_pos hmax
  refine ⟨fun fuel => ?_, Nat.zero_le 1, List.not_mem_nil, fun hne => absurd hmax hne, ?_⟩
  · rw [hinsert]
    exact if_pos hmax
  · rw [hinsert]
    exact h

theorem insert_unlimited {cache : IntrospectionCache V} (h : Sound cache) (now : Nat) (key : Str)
    (value : V) (hmax : cache.options.maxEntries = none) : Inserted now key value cache [] := by
  have hinsert : cache.insert now key value =
      { cache with
        entries := cache.entries.insert key ⟨now, value⟩
        recency := cache.recency.filter (fun candidate => candidate ≠ key) ++ [key] } := by
    simp [IntrospectionCache.insert, hmax]
  refine ⟨fun fuel => ?_, Nat.zero_le 1, List.not_mem_nil, fun _ => ?_, ?_⟩
  · simp [insertWithin, hmax, hinsert]
  · rw [hinsert]
    exact AList.lookup_insert _
  · rw [hinsert]
    exact ⟨h.tracked.back key (mem_inserted _ key _), fun n hn => by simp [hmax] at hn⟩

theorem insert_fits {cache : IntrospectionCache V} (h : Sound cache) (now : Nat) (key : Str)
    (value : V) (maxEntries : Nat) (hmax : cache.options.maxEntries = some maxEntries)
    (hzero : ¬ maxEntries = 0)
    (hfits : (cache.entries.insert key ⟨now, value⟩).keys.length ≤ maxEntries) :
    Inserted now key value cache [] := by
  have hinsert : cache.insert now key value =
      { cache with
        entries := cache.entries.insert key ⟨now, value⟩
        recency := cache.recency.filter (fun candidate => candidate ≠ key) ++ [key] } := by
    simp only [IntrospectionCache.insert, hmax, Option.some.injEq, hzero, if_false,
      evict_done maxEntries _ _ hfits]
  refine ⟨fun fuel => ?_, Nat.zero_le 1, List.not_mem_nil, fun _ => ?_, ?_⟩
  · simp only [insertWithin, hmax, Option.some.injEq, hzero, if_false,
      loop_done maxEntries _ _ _ _ hfits, Option.map_some, hinsert]
  · rw [hinsert]
    exact AList.lookup_insert _
  · rw [hinsert]
    refine ⟨h.tracked.back key (mem_inserted _ key _), fun n hn => ?_⟩
    rwa [← Option.some.inj (hmax.symm.trans hn)]

/- Over the limit, the deque holds another key before the new one: that one goes, and no other. -/
theorem insert_over {cache : IntrospectionCache V} (h : Sound cache) (now : Nat) (key : Str)
    (value : V) (maxEntries : Nat) (hmax : cache.options.maxEntries = some maxEntries)
    (hzero : ¬ maxEntries = 0)
    (hover : maxEntries < (cache.entries.insert key ⟨now, value⟩).keys.length) :
    ∃ oldest, Inserted now key value cache [oldest] := by
  have hback := h.tracked.back key (mem_inserted cache.entries key ⟨now, value⟩)
  have hbound := h.bounded maxEntries hmax
  have hbefore := h.tracked.length
  have hsize := hback.length
  rw [List.length_append, List.length_singleton] at hsize
  have hfewer := List.length_filter_le (fun candidate => decide (candidate ≠ key)) cache.recency
  have hone : (cache.entries.insert key ⟨now, value⟩).keys.length = maxEntries + 1 := by omega
  cases hothers : cache.recency.filter fun candidate => candidate ≠ key with
  | nil =>
    rw [hothers, List.length_nil] at hsize
    omega
  | cons oldest others =>
    have holdest : oldest ≠ key := by
      have hmem : oldest ∈ cache.recency.filter fun candidate => candidate ≠ key := by
        rw [hothers]
        exact List.mem_cons_self
      exact of_decide_eq_true (List.mem_filter.mp hmem).2
    rw [hothers, List.cons_append] at hback
    obtain ⟨-, hevict, hfits⟩ := loop_one maxEntries 0 _ oldest _ hback hone
    have hinsert : cache.insert now key value =
        { cache with
          entries := (cache.entries.insert key ⟨now, value⟩).erase oldest
          recency := others ++ [key] } := by
      simp only [IntrospectionCache.insert, hmax, Option.some.injEq, hzero, if_false, hothers,
        List.cons_append, hevict]
    refine ⟨oldest, fun fuel => ?_, Nat.le_refl 1, ?_, fun _ => ?_, ?_⟩
    · have hloop := (loop_one maxEntries fuel _ oldest _ hback hone).1
      simp only [insertWithin, hmax, Option.some.injEq, hzero, if_false, hothers,
        List.cons_append, hloop, Option.map_some, hinsert]
    · rw [List.mem_singleton]
      exact holdest.symm
    · rw [hinsert]
      exact (AList.lookup_erase_ne holdest.symm).trans (AList.lookup_insert _)
    · rw [hinsert]
      refine ⟨hback.pop, fun n hn => ?_⟩
      rwa [← Option.some.inj (hmax.symm.trans hn)]

theorem Sound.insert {cache : IntrospectionCache V} (h : Sound cache) (now : Nat) (key : Str)
    (value : V) : ∃ popped, Inserted now key value cache popped := by
  cases hmax : cache.options.maxEntries with
  | none => exact ⟨[], insert_unlimited h now key value hmax⟩
  | some maxEntries =>
    by_cases hzero : maxEntries = 0
    · exact ⟨[], insert_nowhere h now key value (hmax.trans (congrArg some hzero))⟩
    by_cases hover : maxEntries < (cache.entries.insert key ⟨now, value⟩).keys.length
    · obtain ⟨oldest, hinserted⟩ := insert_over h now key value maxEntries hmax hzero hover
      exact ⟨[oldest], hinserted⟩
    · exact ⟨[], insert_fits h now key value maxEntries hmax hzero (Nat.not_lt.mp hover)⟩

/-! ### Every run -/

theorem Sound.step {cache : IntrospectionCache V} (h : Sound cache)
    (call : Nat × Lru.Call Str V) : Sound (step cache call).2 := by
  obtain ⟨now, request⟩ := call
  cases request with
  | get key => exact h.get now key
  | insert key value =>
    obtain ⟨popped, hinserted⟩ := h.insert now key value
    exact hinserted.sound
  | clear => exact Sound.clear cache

theorem stepWithin_step {cache : IntrospectionCache V} (h : Sound cache) (fuel : Nat)
    (call : Nat × Lru.Call Str V) :
    stepWithin (fuel + 1) cache call = some (step cache call).2 := by
  obtain ⟨now, request⟩ := call
  cases request with
  | get key => rfl
  | insert key value =>
    obtain ⟨popped, hinserted⟩ := h.insert now key value
    simp only [stepWithin, hinserted.terminates fuel, Option.map_some, IntrospectionCache.step]
  | clear => rfl

theorem runWithin_run {cache : IntrospectionCache V} (h : Sound cache) (fuel : Nat)
    (calls : List (Nat × Lru.Call Str V)) :
    runWithin (fuel + 1) cache calls = some (Mealy.run IntrospectionCache.step cache calls).2 := by
  induction calls generalizing cache with
  | nil => rfl
  | cons call calls ih =>
    have hfirst := stepWithin_step h fuel call
    unfold runWithin at ih ⊢
    rw [List.foldlM_cons, hfirst]
    exact ih (h.step call)

theorem introspectionCache_sound (options : IntrospectionCacheOptions)
    (calls : List (Nat × Lru.Call Str V)) :
    ∃ cache : IntrospectionCache V,
      (∀ fuel, runWithin (fuel + 1) (new options) calls = some cache) ∧
      cache.options = options ∧
      Sound cache ∧
      ∀ now key value, ∃ popped, Inserted now key value cache popped := by
  refine ⟨(Mealy.run IntrospectionCache.step (new options) calls).2,
    fun fuel => runWithin_run (Sound.new options) fuel calls, ?_, ?_⟩
  · exact Mealy.run_invariant (I := fun cache => cache.options = options)
      (fun cache call h => (step_options cache call).trans h) (new options) calls rfl
  · have hsound := Mealy.run_invariant (I := Sound) (fun cache call h => h.step call)
      (new options) calls (Sound.new options)
    exact ⟨hsound, fun now key value => hsound.insert now key value⟩

end FsspecDb.Fs.IntrospectionCache
