import FsspecDb.Fs.Race

/-!
# The listings cache in front of DatabaseFs (spec.py, `IntrospectionCacheMixin`)

`_cached_ls` and `_cached_info` keep entries in fsspec's `dircache`, which obeys
`listings_expiry_time` and `use_listings_cache`; their loader is the `DatabaseFs`
with a cache of its own, which obeys neither.
-/

namespace FsspecDb.Fs
open IntrospectionCache Transition

variable {σ Stream : Type}

/-- When a value was read from the database: the time, and the call. No part of
the code. -/
structure ReadAt where
  time : Nat
  call : Nat
  deriving Repr, DecidableEq

structure DirEntry where
  storedAt : Nat
  entries : List FileInfo
  readAt : ReadAt
  deriving Repr, DecidableEq

structure ListingsOptions where
  useListingsCache : Bool
  listingsExpiryTime : Nat
  deriving Repr, DecidableEq

/-- The Python filesystem: the database, the Rust cache, `dircache`, the time and
how many calls were made. -/
structure PyFs (σ : Type) where
  contents : σ
  rust : IntrospectionCache (Cached ReadAt)
  dircache : AList fun _ : Str => DirEntry
  now : Nat
  calls : Nat

/-- `path.rstrip("/") or self.root_marker`, for `info` behind `_INFO_CACHE_PREFIX`. -/
def dircacheKey : Request → Str
  | .ls path => stripped path
  | .info path => "__fsspec_db_info__:".toList ++ stripped path
where
  stripped (path : Str) : Str :=
    if path.rdropWhile (· == '/') = [] then ['/'] else path.rdropWhile (· == '/')

/-- `entries = loader(path, True)` or `entries = [loader(path)]`. -/
def entriesOf : CachedIntrospection → List FileInfo
  | .Listing entries => entries
  | .Info info => [info]

/-- `return entries` or `return entries[0]`. -/
def answerOf (request : Request) (entries : List FileInfo) : Option CachedIntrospection :=
  match request with
  | .ls _ => some (.Listing entries)
  | .info _ => entries.head?.map .Info

/-- `self.dircache[key]`. fsspec answers only with caching on and for an entry
younger than the expiry time; `kept` is false where it has dropped the entry. -/
def dircacheGet (options : ListingsOptions) (s : PyFs σ) (kept : Bool) (key : Str) :
    Option DirEntry :=
  if options.useListingsCache && kept then
    (s.dircache.lookup key).filter fun entry =>
      decide (s.now - entry.storedAt < options.listingsExpiryTime)
  else none

/-- `self.invalidate_cache(path)`. -/
def pyInvalidate (s : PyFs σ) : PyFs σ := { s with dircache := ∅, rust := s.rust.clear }

inductive PyOp (σ : Type) where
  | request (request : Request) (refresh kept : Bool)
  | invalidateCache
  | external (contents : σ)
  | advance (elapsed : Nat)

inductive PyAnswer where
  | value (value : Option CachedIntrospection) (readAt : ReadAt)
  | failed (err : DbError)
  | done
  deriving Repr, DecidableEq

/-- `_cached_ls` and `_cached_info` on a miss. -/
def pyLoad (db : Database σ Stream) (options : ListingsOptions) (request : Request) (s : PyFs σ) :
    PyAnswer × PyFs σ :=
  match cachedRead db s.contents s.now ⟨s.now, s.calls⟩ request s.rust with
  | (.error err, rust) => (.failed err, { s with rust, calls := s.calls + 1 })
  | (.ok cached, rust) =>
    let entries := entriesOf cached.value
    let entry : DirEntry := ⟨s.now, entries, cached.readAt⟩
    (.value (answerOf request entries) cached.readAt, { s with
      rust
      dircache := if options.useListingsCache then s.dircache.insert (dircacheKey request) entry
        else s.dircache
      calls := s.calls + 1 })

/-- One step of the run: a call, a change of the database by someone else, or time. -/
def pyExec (db : Database σ Stream) (options : ListingsOptions) (s : PyFs σ) :
    PyOp σ → PyAnswer × PyFs σ
  | .request request refresh kept =>
    if refresh then pyLoad db options request (pyInvalidate s)
    else
      match dircacheGet options s kept (dircacheKey request) with
      | some entry =>
        (.value (answerOf request entry.entries) entry.readAt, { s with calls := s.calls + 1 })
      | none => pyLoad db options request s
  | .invalidateCache => (.done, pyInvalidate s)
  | .external contents => (.done, { s with contents })
  | .advance elapsed => (.done, { s with now := s.now + elapsed })

def PyStep (db : Database σ Stream) (options : ListingsOptions) : System (PyFs σ) (PyOp σ) :=
  fun s op t => t = (pyExec db options s op).2

/-- A filesystem just constructed; the Rust cache has its default options. -/
def pyStart (contents : σ) (now : Nat) : PyFs σ := ⟨contents, new .default, ∅, now, 0⟩

/-- The bound: with caching on the value is not older than the expiry time, with
caching off it was read by this very call. -/
def Timely (options : ListingsOptions) (s : PyFs σ) (readAt : ReadAt) : Prop :=
  if options.useListingsCache then s.now ≤ readAt.time + options.listingsExpiryTime
  else readAt.call = s.calls

/-- A call that `dircache` does not answer finds no live entry in the Rust cache,
unless with caching on one inserted at this very time. -/
def NoOldRustEntry (options : ListingsOptions) (s : PyFs σ) : PyOp σ → Prop
  | .request request refresh kept => refresh = false →
    dircacheGet options s kept (dircacheKey request) = none →
      ∀ entry, s.rust.entries.lookup request.key = some entry →
        expired s.rust.options s.now entry = false →
          options.useListingsCache = true ∧ entry.inserted = s.now
  | _ => True

/-! ### The invariant -/

/-- Rust entries carry the time they were read at, and so do those of `dircache`. -/
def Dated (s : PyFs σ) : Prop :=
  (∀ k entry, s.rust.entries.lookup k = some entry → entry.value.readAt.time = entry.inserted) ∧
  ∀ k entry, s.dircache.lookup k = some entry → entry.readAt.time = entry.storedAt

theorem dated_invalidate (s : PyFs σ) : Dated (pyInvalidate s) := by
  refine ⟨fun k entry h => ?_, fun k entry h => ?_⟩
  · simp only [pyInvalidate, clear_lookup, reduceCtorEq] at h
  · simp only [pyInvalidate, AList.lookup_empty, reduceCtorEq] at h

/- Loading through a Rust cache without an old entry reads at this time, with caching
off in this call, and keeps everything dated. -/
theorem pyLoad_spec (db : Database σ Stream) (options : ListingsOptions) (request : Request)
    (s : PyFs σ) (hs : Dated s)
    (h : ∀ entry, s.rust.entries.lookup request.key = some entry →
      expired s.rust.options s.now entry = false →
        options.useListingsCache = true ∧ entry.inserted = s.now) :
    Dated (pyLoad db options request s).2 ∧
      ∀ value readAt, (pyLoad db options request s).1 = .value value readAt →
        readAt.time = s.now ∧ (options.useListingsCache = false → readAt.call = s.calls) := by
  have hrust (k : Str) (entry : CacheEntry (Cached ReadAt))
      (hk : (cachedRead db s.contents s.now ⟨s.now, s.calls⟩ request s.rust).2.entries.lookup k =
        some entry) : entry.value.readAt.time = entry.inserted := by
    rcases cachedRead_lookup db _ _ _ request s.rust k entry hk with hold | ⟨_, value, rfl, _⟩
    · exact hs.1 k entry hold
    · rfl
  have hvalue (cached : Cached ReadAt)
      (hc : (cachedRead db s.contents s.now ⟨s.now, s.calls⟩ request s.rust).1 = .ok cached) :
      cached.readAt.time = s.now ∧
        (options.useListingsCache = false → cached.readAt.call = s.calls) := by
    rcases cachedRead_value db _ _ _ request s.rust cached hc with
      ⟨entry, hentry, rfl, hlive⟩ | ⟨_, hnow⟩
    · obtain ⟨huse, hinserted⟩ := h entry hentry hlive
      exact ⟨(hs.1 _ entry hentry).trans hinserted, fun hoff => by rw [huse] at hoff; simp at hoff⟩
    · rw [hnow]
      exact ⟨rfl, fun _ => rfl⟩
  unfold pyLoad
  cases hread : cachedRead db s.contents s.now ⟨s.now, s.calls⟩ request s.rust with
  | mk result rust =>
    rw [hread] at hrust hvalue
    cases result with
    | error err => exact ⟨⟨hrust, hs.2⟩, fun value readAt heq => by simp at heq⟩
    | ok cached =>
      obtain ⟨htime, hcall⟩ := hvalue cached rfl
      refine ⟨⟨hrust, fun k entry hk => ?_⟩, fun value readAt heq => ?_⟩
      · dsimp only at hk
        split at hk
        · by_cases hkey : k = dircacheKey request
          · rw [hkey, AList.lookup_insert] at hk
            obtain rfl := Option.some.inj hk
            exact htime
          · rw [AList.lookup_insert_ne hkey] at hk
            exact hs.2 k entry hk
        · exact hs.2 k entry hk
      · obtain ⟨_, rfl⟩ := PyAnswer.value.inj heq
        exact ⟨htime, hcall⟩

theorem dated_step (db : Database σ Stream) (options : ListingsOptions) (s : PyFs σ) (op : PyOp σ)
    (t : PyFs σ) (h : restrict (PyStep db options) (NoOldRustEntry options) s op t)
    (hs : Dated s) : Dated t := by
  obtain ⟨rfl, hrust⟩ := h
  cases op with
  | request request refresh kept =>
    cases refresh with
    | true =>
      refine (pyLoad_spec db options request _ (dated_invalidate s) fun entry h => ?_).1
      simp only [pyInvalidate, clear_lookup, reduceCtorEq] at h
    | false =>
      cases hget : dircacheGet options s kept (dircacheKey request) with
      | some entry =>
        simp only [pyExec, Bool.false_eq_true, if_false, hget]
        exact hs
      | none =>
        simp only [pyExec, Bool.false_eq_true, if_false, hget]
        exact (pyLoad_spec db options request s hs (hrust rfl hget)).1
  | invalidateCache => exact dated_invalidate s
  | external contents => exact hs
  | advance elapsed => exact hs

/-- In every run in which no call is passed on to a Rust cache that still has an
older entry for its path, every value that `ls` or `info` returns keeps the bound. -/
theorem listings_are_timely (db : Database σ Stream) (options : ListingsOptions) (contents : σ)
    (now : Nat) (ops : List (PyOp σ)) (s : PyFs σ)
    (hrun : Run (restrict (PyStep db options) (NoOldRustEntry options)) (pyStart contents now)
      ops s) (request : Request) (refresh kept : Bool)
    (hcall : NoOldRustEntry options s (.request request refresh kept))
    (value : Option CachedIntrospection) (readAt : ReadAt)
    (hanswer : (pyExec db options s (.request request refresh kept)).1 = .value value readAt) :
    Timely options s readAt := by
  have hstart : Dated (pyStart contents now : PyFs σ) :=
    ⟨fun k entry h => by simp [pyStart, new] at h, fun k entry h => by simp [pyStart] at h⟩
  have hs := hrun.invariant (dated_step db options) hstart
  have hloaded (h : readAt.time = s.now ∧
      (options.useListingsCache = false → readAt.call = s.calls)) : Timely options s readAt := by
    unfold Timely
    split
    · rw [h.1]
      exact Nat.le_add_right _ _
    · next hoff => exact h.2 (by simpa using hoff)
  cases refresh with
  | true =>
    exact hloaded ((pyLoad_spec db options request _ (dated_invalidate s) fun entry h => by
      simp [pyInvalidate] at h).2 value readAt hanswer)
  | false =>
    cases hget : dircacheGet options s kept (dircacheKey request) with
    | none =>
      simp only [pyExec, Bool.false_eq_true, if_false, hget] at hanswer
      exact hloaded ((pyLoad_spec db options request s hs (hcall rfl hget)).2 value readAt hanswer)
    | some entry =>
      simp only [pyExec, Bool.false_eq_true, if_false, hget, PyAnswer.value.injEq] at hanswer
      unfold dircacheGet at hget
      split at hget
      · next huse =>
        obtain ⟨hentry, hyoung⟩ := Option.filter_eq_some_iff.mp hget
        rw [decide_eq_true_iff] at hyoung
        have hdate := hs.2 _ entry hentry
        rw [Timely, if_pos (by simpa using (Bool.and_eq_true_iff.mp huse).1), ← hanswer.2, hdate]
        omega
      · simp at hget

def usersChange : List (PyOp Nat) :=
  [.request usersInfo false true, .external 1, .advance (20 * SECOND)]

def tenSeconds (useListingsCache : Bool) : ListingsOptions := ⟨useListingsCache, 10 * SECOND⟩

def usersChanged (useListingsCache : Bool) : PyFs Nat :=
  usersChange.foldl (fun s op => (pyExec countingDb (tenSeconds useListingsCache) s op).2)
    (pyStart 0 0)

/-- A second `info` with `refresh=True` sees the change. -/
theorem refreshed_info_is_timely :
    ∃ readAt, (pyExec countingDb (tenSeconds true) (usersChanged true)
        (.request usersInfo true true)).1 =
          .value (some (.Info (relationInfo "main".toList (usersWith 1)))) readAt ∧
      Timely (tenSeconds true) (usersChanged true) readAt := by
  have hfirst : NoOldRustEntry (tenSeconds true) (pyStart 0 0 : PyFs Nat)
      (.request usersInfo false true) := fun _ _ entry h => by simp [pyStart, new] at h
  have hrun : Run (restrict (PyStep countingDb (tenSeconds true))
      (NoOldRustEntry (tenSeconds true))) (pyStart 0 0) usersChange (usersChanged true) :=
    .cons ⟨rfl, hfirst⟩ (.cons ⟨rfl, trivial⟩ (.cons ⟨rfl, trivial⟩ (.nil _)))
  have hanswer : (pyExec countingDb (tenSeconds true) (usersChanged true)
      (.request usersInfo true true)).1 =
        .value (some (.Info (relationInfo "main".toList (usersWith 1)))) ⟨20 * SECOND, 1⟩ := by
    decide
  exact ⟨_, hanswer, listings_are_timely countingDb (tenSeconds true) 0 0 _ _ hrun
    usersInfo true true (fun h => absurd h (by decide)) _ _ hanswer⟩

/-- Without it the answer comes from the Rust cache and is twenty seconds old, and
so it is with `use_listings_cache=False`. -/
theorem second_info_is_not_timely :
    (Run (PyStep countingDb (tenSeconds true)) (pyStart 0 0) usersChange (usersChanged true) ∧
      ∃ readAt, (pyExec countingDb (tenSeconds true) (usersChanged true)
          (.request usersInfo false true)).1 =
            .value (some (.Info (relationInfo "main".toList (usersWith 0)))) readAt ∧
        ¬ Timely (tenSeconds true) (usersChanged true) readAt) ∧
    (Run (PyStep countingDb (tenSeconds false)) (pyStart 0 0) usersChange (usersChanged false) ∧
      ∃ readAt, (pyExec countingDb (tenSeconds false) (usersChanged false)
          (.request usersInfo false true)).1 =
            .value (some (.Info (relationInfo "main".toList (usersWith 0)))) readAt ∧
        ¬ Timely (tenSeconds false) (usersChanged false) readAt) := by
  refine ⟨⟨.cons rfl (.cons rfl (.cons rfl (.nil _))), ⟨0, 0⟩, by decide, ?_⟩,
    ⟨.cons rfl (.cons rfl (.cons rfl (.nil _))), ⟨0, 0⟩, by decide, ?_⟩⟩
  · rw [Timely, if_pos (by decide)]
    decide
  · rw [Timely, if_neg (by decide)]
    decide

end FsspecDb.Fs
