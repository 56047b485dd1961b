import FsspecDb.Fs.Cache
import FsspecDb.Lib.Lru

/-!
# The introspection cache against the abstract one

The map and the deque of the source hold together what the one list of `Lru`
holds: the deque is its keys in order, the map finds what the list finds.
-/

namespace FsspecDb.Fs.IntrospectionCache

variable {V : Type}

/- The calls of the cache with the time the clock shows at each. -/
def step (cache : IntrospectionCache V) (call : Nat × Lru.Call Str V) :
    Option V × IntrospectionCache V :=
  match call.2 with
  | .get key => cache.get call.1 key
  | .insert key value => (none, cache.insert call.1 key value)
  | .clear => (none, cache.clear)

def limits (options : IntrospectionCacheOptions) : Lru.Limits :=
  ⟨options.ttl, options.maxEntries⟩

def entryOf (item : Lru.Item Str V) : CacheEntry V := ⟨item.inserted, item.value⟩

structure Holding (entries : AList fun _ : Str => CacheEntry V) (items : List (Lru.Item Str V)) :
    Prop where
  distinct : Lru.Distinct items
  found : ∀ key, entries.lookup key = (Lru.find key items).map entryOf

structure Represents (now : Nat) (cache : IntrospectionCache V)
    (items : List (Lru.Item Str V)) : Prop where
  holding : Holding cache.entries items
  recency : cache.recency = items.map Lru.Item.key
  past : ∀ item ∈ items, item.inserted ≤ now

theorem holding_empty : Holding (V := V) ∅ [] :=
  ⟨Lru.distinct_nil, fun key => AList.lookup_empty key⟩

theorem Holding.without {entries : AList fun _ : Str => CacheEntry V}
    {items : List (Lru.Item Str V)} (h : Holding entries items) (key : Str) :
    Holding (entries.erase key) (Lru.without key items) := by
  refine ⟨Lru.distinct_without key h.distinct, fun k => ?_⟩
  rw [Lru.find_without]
  by_cases hk : k = key
  · rw [if_pos hk, hk, AList.lookup_erase]
    rfl
  · rw [if_neg hk, AList.lookup_erase_ne hk, h.found]

theorem Holding.append {entries : AList fun _ : Str => CacheEntry V}
    {items : List (Lru.Item Str V)} (h : Holding entries items) (item : Lru.Item Str V) :
    Holding (entries.insert item.key (entryOf item))
      (Lru.without item.key items ++ [item]) := by
  refine ⟨Lru.distinct_append item h.distinct, fun k => ?_⟩
  rw [Lru.find_without_append]
  by_cases hk : k = item.key
  · rw [if_pos hk, hk, AList.lookup_insert]
    rfl
  · rw [if_neg hk, AList.lookup_insert_ne hk, h.found]

/- A hit touches the order only. -/
theorem Holding.touch {entries : AList fun _ : Str => CacheEntry V}
    {items : List (Lru.Item Str V)} (h : Holding entries items) {item : Lru.Item Str V}
    (hfind : Lru.find item.key items = some item) :
    Holding entries (Lru.without item.key items ++ [item]) := by
  refine ⟨Lru.distinct_append item h.distinct, fun k => ?_⟩
  rw [Lru.find_without_append, h.found]
  by_cases hk : k = item.key
  · rw [if_pos hk, hk, hfind]
  · rw [if_neg hk]

theorem Holding.length {entries : AList fun _ : Str => CacheEntry V}
    {items : List (Lru.Item Str V)} (h : Holding entries items) :
    entries.keys.length = items.length := by
  have hsame : entries.keys.Perm (items.map Lru.Item.key) := by
    apply (List.perm_ext_iff_of_nodup entries.nodupKeys h.distinct).mpr
    intro key
    have hkeys : key ∈ entries.entries.keys ↔ (entries.lookup key).isSome := by
      rw [AList.lookup_isSome]
      rfl
    rw [hkeys, h.found, Option.isSome_map, ← Option.ne_none_iff_isSome, ne_eq, Lru.find_eq_none,
      not_not]
  rw [hsame.length_eq, List.length_map]

/- The loop of `insert` drops from the front, and stops because little enough is left. -/
theorem evict_holding (maxEntries : Nat) (items : List (Lru.Item Str V))
    (entries : AList fun _ : Str => CacheEntry V) (h : Holding entries items) :
    Holding (evict maxEntries (items.map Lru.Item.key) entries).1
        (items.drop (items.length - maxEntries)) ∧
      (evict maxEntries (items.map Lru.Item.key) entries).2 =
        (items.drop (items.length - maxEntries)).map Lru.Item.key := by
  induction items generalizing entries with
  | nil =>
    rw [List.drop_nil]
    exact ⟨h, rfl⟩
  | cons item items ih =>
    have hlength := h.length
    rw [List.length_cons] at hlength
    rw [List.map_cons]
    unfold evict
    by_cases hover : maxEntries < entries.keys.length
    · have hdistinct := List.nodup_cons.mp h.distinct
      have hrest : Holding (entries.erase item.key) items := by
        have herased := h.without item.key
        have hwithout : Lru.without item.key (item :: items) = items := by
          simp only [Lru.without, ne_eq, List.filter_cons, not_true_eq_false, decide_false,
            Bool.false_eq_true, if_false]
          apply List.filter_eq_self.mpr
          intro other hother
          have hne : other.key ≠ item.key := fun heq =>
            hdistinct.1 (heq ▸ List.mem_map_of_mem hother)
          simp [hne]
        rwa [hwithout] at herased
      have hdrop : (item :: items).drop ((item :: items).length - maxEntries) =
          items.drop (items.length - maxEntries) := by
        have hmore : (item :: items).length - maxEntries = (items.length - maxEntries) + 1 := by
          rw [List.length_cons]
          omega
        rw [hmore, List.drop_succ_cons]
      rw [if_pos hover, hdrop]
      exact ih (entries.erase item.key) hrest
    · have hall : (item :: items).length - maxEntries = 0 := by
        rw [List.length_cons]
        omega
      rw [if_neg hover, hall]
      exact ⟨h, rfl⟩

theorem expired_old (options : IntrospectionCacheOptions) (now : Nat) (item : Lru.Item Str V)
    (hpast : item.inserted ≤ now) :
    expired options now (entryOf item) = Lru.old (limits options).ttl now item := by
  cases httl : options.ttl with
  | none => simp [expired, Lru.old, limits, httl]
  | some ttl =>
    have hage : (ttl ≤ now - item.inserted) = (item.inserted + ttl ≤ now) := by
      apply propext
      omega
    simp only [expired, Lru.old, limits, httl, Option.any_some, entryOf, hage]

/-! ### One call -/

theorem get_represents (now : Nat) (key : Str) (cache : IntrospectionCache V)
    (items : List (Lru.Item Str V)) (h : Represents now cache items) :
    (cache.get now key).1 = (Lru.get (limits cache.options) now key items).1 ∧
      Represents now (cache.get now key).2 (Lru.get (limits cache.options) now key items).2 := by
  have hfound := h.holding.found key
  unfold get Lru.get
  cases hfind : Lru.find key items with
  | none =>
    rw [hfind, Option.map_none] at hfound
    rw [hfound]
    exact ⟨rfl, h⟩
  | some item =>
    obtain ⟨hmem, hkey⟩ := Lru.find_some hfind
    rw [hfind, Option.map_some] at hfound
    rw [hfound]
    dsimp only
    rw [expired_old _ _ _ (h.past item hmem)]
    have hothers : cache.recency.filter (fun candidate => candidate ≠ key) =
        (Lru.without key items).map Lru.Item.key := by
      rw [h.recency, Lru.map_without]
    split
    · refine ⟨rfl, h.holding.without key, hothers, fun other hother => ?_⟩
      exact h.past other (Lru.without_subset hother).1
    · subst hkey
      refine ⟨rfl, h.holding.touch hfind, ?_, fun other hother => ?_⟩
      · rw [List.map_append, ← hothers]
        rfl
      · rcases List.mem_append.mp hother with hold | hlast
        · exact h.past other (Lru.without_subset hold).1
        · rw [List.mem_singleton.mp hlast]
          exact h.past item hmem

theorem insert_represents (now : Nat) (key : Str) (value : V) (cache : IntrospectionCache V)
    (items : List (Lru.Item Str V)) (h : Represents now cache items) :
    Represents now (cache.insert now key value)
      (Lru.insert (limits cache.options) now key value items) := by
  let new : Lru.Item Str V := ⟨key, value, now⟩
  have happended := h.holding.append new
  have hpast : ∀ item ∈ Lru.without key items ++ [new], item.inserted ≤ now := by
    intro item hitem
    rcases List.mem_append.mp hitem with hold | hnew
    · exact h.past item (Lru.without_subset hold).1
    · rw [List.mem_singleton.mp hnew]
  have hrecency : cache.recency.filter (fun candidate => candidate ≠ key) ++ [key] =
      (Lru.without key items ++ [new]).map Lru.Item.key := by
    rw [h.recency, List.map_append, Lru.map_without]
    rfl
  unfold insert Lru.insert
  by_cases hzero : cache.options.maxEntries = some 0
  · have hlimit : (limits cache.options).capacity = some 0 := hzero
    rw [if_pos hzero, if_pos hlimit]
    exact h
  · have hlimit : (limits cache.options).capacity ≠ some 0 := hzero
    rw [if_neg hzero, if_neg hlimit, hrecency]
    cases hmax : cache.options.maxEntries with
    | none =>
      have hnone : (limits cache.options).capacity = none := hmax
      rw [hnone]
      exact ⟨happended, rfl, hpast⟩
    | some maxEntries =>
      have hsome : (limits cache.options).capacity = some maxEntries := hmax
      rw [hsome]
      obtain ⟨hentries, horder⟩ := evict_holding maxEntries _ _ happended
      exact ⟨hentries, horder, fun item hitem => hpast item (List.mem_of_mem_drop hitem)⟩

theorem Represents.later {now later : Nat} {cache : IntrospectionCache V}
    {items : List (Lru.Item Str V)} (h : Represents now cache items) (hle : now ≤ later) :
    Represents later cache items :=
  ⟨h.holding, h.recency, fun item hitem => le_trans (h.past item hitem) hle⟩

theorem step_represents (call : Nat × Lru.Call Str V) (cache : IntrospectionCache V)
    (items : List (Lru.Item Str V)) (h : Represents call.1 cache items) :
    (step cache call).1 = (Lru.step (limits cache.options) items call).1 ∧
      Represents call.1 (step cache call).2 (Lru.step (limits cache.options) items call).2 := by
  obtain ⟨now, request⟩ := call
  cases request with
  | get key => exact get_represents now key cache items h
  | insert key value => exact ⟨rfl, insert_represents now key value cache items h⟩
  | clear => exact ⟨rfl, holding_empty, rfl, fun item hitem => absurd hitem List.not_mem_nil⟩

@[simp]
theorem step_options (cache : IntrospectionCache V) (call : Nat × Lru.Call Str V) :
    (step cache call).2.options = cache.options := by
  obtain ⟨now, request⟩ := call
  cases request with
  | get key => exact get_options now key cache
  | insert key value => exact insert_options now key value cache
  | clear => rfl

/-! ### Every run -/

theorem run_lru (options : IntrospectionCacheOptions) (calls : List (Nat × Lru.Call Str V))
    (hclock : (calls.map Prod.fst).Pairwise fun earlier later => earlier ≤ later) :
    (Mealy.run step (new options) calls).1 =
      (Mealy.run (Lru.step (limits options)) [] calls).1 := by
  cases calls with
  | nil => rfl
  | cons call calls =>
    have hordered : List.IsChain (fun a b : Nat × Lru.Call Str V => a.1 ≤ b.1)
        (call :: call :: calls) := by
      apply List.Pairwise.isChain
      rw [List.pairwise_map] at hclock
      refine List.pairwise_cons.mpr ⟨fun later hlater => ?_, hclock⟩
      rcases List.mem_cons.mp hlater with heq | hrest
      · rw [heq]
      · exact (List.pairwise_cons.mp hclock).1 later hrest
    have hstart : Represents call.1 (new (V := V) options) [] :=
      ⟨holding_empty, rfl, fun item hitem => absurd hitem List.not_mem_nil⟩
    apply Mealy.run_simulation_chain
      (R := fun last cache items => cache.options = options ∧ Represents last.1 cache items)
      ?_ call (new options) [] (call :: calls) hordered ⟨rfl, hstart⟩
    intro last next cache items hle hrel
    obtain ⟨hoptions, hrep⟩ := hrel
    obtain ⟨hout, hnext⟩ := step_represents next cache items (hrep.later hle)
    rw [hoptions] at hout hnext
    exact ⟨hout, (step_options cache next).trans hoptions, hnext⟩

/- What a `get` answers after any run is what the abstract cache answers there. -/
theorem get_lru (options : IntrospectionCacheOptions) (calls : List (Nat × Lru.Call Str V))
    (now : Nat) (key : Str)
    (hclock : ((calls ++ [(now, Lru.Call.get key)]).map Prod.fst).Pairwise
      fun earlier later => earlier ≤ later) :
    (get now key (Mealy.run step (new options) calls).2).1 =
      (Lru.get (limits options) now key
        (Mealy.run (Lru.step (limits options)) ([] : List (Lru.Item Str V)) calls).2).1 := by
  have hruns := run_lru options (calls ++ [(now, Lru.Call.get key)]) hclock
  rw [Mealy.run_append, Mealy.run_append] at hruns
  have hlast := List.append_inj_right' hruns rfl
  simpa [Mealy.run_cons, step, Lru.step] using hlast

theorem introspectionCache_refines_lru (options : IntrospectionCacheOptions)
    (calls : List (Nat × Lru.Call Str V))
    (hclock : (calls.map Prod.fst).Pairwise fun earlier later => earlier ≤ later) :
    (Mealy.run step (new options) calls).1 =
        (Mealy.run (Lru.step (limits options)) [] calls).1 ∧
      ∀ before now key after value, calls = before ++ (now, .get key) :: after →
        (get now key (Mealy.run step (new options) before).2).1 = some value →
        ∃ inserted, Lru.lastInsert before key = some (value, inserted) ∧
          ∀ ttl, options.ttl = some ttl → now < inserted + ttl := by
  refine ⟨run_lru options calls hclock, ?_⟩
  intro before now key after value hcalls hhit
  have hearlier : ((before ++ [(now, Lru.Call.get key)]).map Prod.fst).Pairwise
      fun earlier later => earlier ≤ later := by
    have hsplit : before ++ (now, .get key) :: after =
        (before ++ [(now, .get key)]) ++ after := by simp
    rw [hcalls, hsplit, List.map_append] at hclock
    exact (List.pairwise_append.mp hclock).1
  rw [get_lru options before now key hearlier] at hhit
  exact Lru.get_hit (limits options) before now key value hhit

/- A hit at 5, the limit of one entry pushing out the other key, and an expiry at 10. -/
theorem introspectionCache_refines_lru_five_calls :
    (Mealy.run step (new ⟨some 10, some 1⟩)
        [(0, .insert "a".toList 1), (5, .get "a".toList), (6, .insert "b".toList 2),
          (7, .get "a".toList), (16, .get "b".toList)]).1 =
      (Mealy.run (Lru.step ⟨some 10, some 1⟩) []
        [(0, .insert "a".toList 1), (5, .get "a".toList), (6, .insert "b".toList 2),
          (7, .get "a".toList), (16, .get "b".toList)]).1 :=
  (introspectionCache_refines_lru ⟨some 10, some 1⟩
    [(0, .insert "a".toList 1), (5, .get "a".toList), (6, .insert "b".toList 2),
      (7, .get "a".toList), (16, .get "b".toList)] (by decide)).1

end FsspecDb.Fs.IntrospectionCache
