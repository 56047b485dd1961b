import FsspecDb.Fs.Coherence

/-!
# A cached read against a write

One thread is in `ls` or `info`: it looks up under the lock, reads the database
without it, and stores under it again. Another thread changes the database and
then clears the cache. The system has every interleaving of the two.
-/

namespace FsspecDb.Fs
open IntrospectionCache Transition

variable {σ Stream : Type}

/-- When a value was read: before the write or after it. -/
inductive Epoch where
  | before
  | after
  deriving Repr, DecidableEq

/-- Where `ls` or `info` is: before its lookup, after a miss, with the value read
from the database, or returned. -/
inductive ReaderPhase where
  | ready
  | missed
  | read (value : CachedIntrospection) (readAt : Epoch)
  | returned

/-- Where the writer is: before the write to the database, between it and the
clearing of the cache, or returned. -/
inductive WriterPhase where
  | ready
  | written
  | returned
  deriving Repr, DecidableEq

structure RaceState (σ : Type) where
  contents : σ
  cache : IntrospectionCache (Cached Epoch)
  now : Nat
  reader : ReaderPhase
  writer : WriterPhase

inductive RaceAction where
  | lookup | read | store | write | clear | elapse
  deriving Repr, DecidableEq

namespace RaceState

def epoch (s : RaceState σ) : Epoch := if s.writer = .ready then .before else .after

def start (contents : σ) (cache : IntrospectionCache (Cached Epoch)) (now : Nat) : RaceState σ :=
  ⟨contents, cache, now, .ready, .ready⟩

/-- An entry holds a value that was read before the write. -/
def Stale (s : RaceState σ) : Prop :=
  ∃ k entry, s.cache.entries.lookup k = some entry ∧ entry.value.readAt = .before

end RaceState

/- The steps. The writer is `write_bytes`, or `invalidate_cache` after another
connection has changed the database; what it writes is left open. -/
inductive RaceStep (db : Database σ Stream) (request : Request) :
    System (RaceState σ) RaceAction where
  | hit {s : RaceState σ} {cached cache} (hr : s.reader = .ready)
      (h : lookupCached s.now request s.cache = (some cached, cache)) :
      RaceStep db request s .lookup { s with cache, reader := .returned }
  | miss {s : RaceState σ} {cache} (hr : s.reader = .ready)
      (h : lookupCached s.now request s.cache = (none, cache)) :
      RaceStep db request s .lookup { s with cache, reader := .missed }
  | readOk {s : RaceState σ} {value} (hr : s.reader = .missed)
      (h : readDb db s.contents request = .ok value) :
      RaceStep db request s .read { s with reader := .read value s.epoch }
  | readError {s : RaceState σ} {err} (hr : s.reader = .missed)
      (h : readDb db s.contents request = .error err) :
      RaceStep db request s .read { s with reader := .returned }
  | store {s : RaceState σ} {value readAt} (hr : s.reader = .read value readAt) :
      RaceStep db request s .store { s with
        cache := s.cache.insert s.now request.key ⟨value, readAt⟩
        reader := .returned }
  | write {s : RaceState σ} (contents : σ) (hw : s.writer = .ready) :
      RaceStep db request s .write { s with contents, writer := .written }
  | clear {s : RaceState σ} (hw : s.writer = .written) :
      RaceStep db request s .clear { s with cache := s.cache.clear, writer := .returned }
  | elapse {s : RaceState σ} {elapsed} :
      RaceStep db request s .elapse { s with now := s.now + elapsed }

/-! ### The order of the steps -/

/- One more label extends a subsequence by its last element or not at all. -/
theorem sublist_snoc {α : Type} (l as : List α) (x a : α) :
    (l ++ [x]).Sublist (as ++ [a]) ↔ (l ++ [x]).Sublist as ∨ x = a ∧ l.Sublist as := by
  rw [← List.reverse_sublist, ← @List.reverse_sublist _ (l ++ [x]), ← @List.reverse_sublist _ l]
  simp only [List.reverse_append, List.reverse_cons, List.reverse_nil, List.nil_append,
    List.singleton_append]
  exact List.cons_sublist_cons'

/-- The labels contain a read, then the write, then the clearing, then a store: each
of these holds of `as` followed by `a` if it did of `as`, or `a` is the last of them. -/
def Reads (as : List RaceAction) : Prop := [RaceAction.read].Sublist as
def ReadsWrites (as : List RaceAction) : Prop := [RaceAction.read, .write].Sublist as
def ReadsWritesClears (as : List RaceAction) : Prop :=
  [RaceAction.read, .write, .clear].Sublist as

/-- The order of steps that leaves an old value behind. -/
def Straddles (as : List RaceAction) : Prop :=
  [RaceAction.read, .write, .clear, .store].Sublist as

theorem reads_snoc (as : List RaceAction) (a : RaceAction) :
    Reads (as ++ [a]) ↔ Reads as ∨ .read = a := by
  rw [Reads, Reads, ← List.nil_append [RaceAction.read], sublist_snoc]
  simp only [List.nil_sublist, and_true]

theorem readsWrites_snoc (as : List RaceAction) (a : RaceAction) :
    ReadsWrites (as ++ [a]) ↔ ReadsWrites as ∨ .write = a ∧ Reads as :=
  sublist_snoc [RaceAction.read] as .write a

theorem readsWritesClears_snoc (as : List RaceAction) (a : RaceAction) :
    ReadsWritesClears (as ++ [a]) ↔ ReadsWritesClears as ∨ .clear = a ∧ ReadsWrites as :=
  sublist_snoc [RaceAction.read, .write] as .clear a

theorem straddles_snoc (as : List RaceAction) (a : RaceAction) :
    Straddles (as ++ [a]) ↔ Straddles as ∨ .store = a ∧ ReadsWritesClears as :=
  sublist_snoc [RaceAction.read, .write, .clear] as .store a

theorem reads_of_readsWrites {as : List RaceAction} (h : ReadsWrites as) : Reads as :=
  List.Sublist.trans (List.sublist_append_left [RaceAction.read] [.write]) h

theorem readsWrites_of_clears {as : List RaceAction} (h : ReadsWritesClears as) : ReadsWrites as :=
  List.Sublist.trans (List.sublist_append_left [RaceAction.read, .write] [.clear]) h

theorem clears_of_straddles {as : List RaceAction} (h : Straddles as) : ReadsWritesClears as :=
  List.Sublist.trans (List.sublist_append_left [RaceAction.read, .write, .clear] [.store]) h

/-! ### The invariant -/

/- What the order of the steps so far says about the reader's phase. -/
def ReaderFits (as : List RaceAction) (s : RaceState σ) : Prop :=
  match s.reader with
  | .ready | .missed => ¬ Reads as
  | .read _ .before => Reads as ∧ (s.writer ≠ .ready → ReadsWrites as) ∧
    (s.writer = .returned →
      ReadsWritesClears as ∧ s.cache.entries = ∅ ∧ s.cache.recency = []) ∧ ¬ Straddles as
  | .read _ .after => s.writer ≠ .ready ∧ ¬ ReadsWrites as
  | .returned => True

/-- Once the cache was cleared, an old value is in it exactly if the order of the
steps straddles the write, and anything is cached at all. -/
def RaceInvariant (options : IntrospectionCacheOptions) (as : List RaceAction)
    (s : RaceState σ) : Prop :=
  s.cache.options = options ∧
  (s.writer = .ready → ¬ ReadsWrites as) ∧
  (s.writer ≠ .returned → ¬ ReadsWritesClears as) ∧
  (s.writer = .returned → (s.Stale ↔ Straddles as ∧ options.maxEntries ≠ some 0)) ∧
  ReaderFits as s

/- A lookup brings no old value into the cache. -/
theorem stale_lookup (s : RaceState σ) (request : Request) (reader : ReaderPhase)
    (h : ({ s with cache := (lookupCached s.now request s.cache).2, reader } : RaceState σ).Stale) :
    s.Stale := by
  obtain ⟨k, entry, hlookup, hbefore⟩ := h
  dsimp only at hlookup
  rw [lookupCached_cache] at hlookup
  exact ⟨k, entry, get_lookup s.now request.key s.cache k entry hlookup, hbefore⟩

theorem raceInvariant_lookup (options : IntrospectionCacheOptions) (as : List RaceAction)
    (s : RaceState σ) (request : Request) (reader : ReaderPhase) (hr : s.reader = .ready)
    (hreader : reader = .missed ∨ reader = .returned) (h : RaceInvariant options as s) :
    RaceInvariant options (as ++ [.lookup])
      { s with cache := (lookupCached s.now request s.cache).2, reader } := by
  obtain ⟨hoptions, hready, hnot, hstale, hfits⟩ := h
  simp only [ReaderFits, hr] at hfits
  have hnoStraddle : ¬ Straddles as := fun h =>
    hfits (reads_of_readsWrites (readsWrites_of_clears (clears_of_straddles h)))
  refine ⟨?_, ?_, ?_, ?_, ?_⟩
  · dsimp only
    rw [lookupCached_cache, get_options, hoptions]
  · simpa [readsWrites_snoc] using hready
  · simpa [readsWritesClears_snoc] using hnot
  · intro hw
    have hfresh : ¬ s.Stale := fun hold => hnoStraddle ((hstale hw).mp hold).1
    simp only [straddles_snoc, reduceCtorEq, false_and, or_false, hnoStraddle, iff_false]
    exact fun hold => hfresh (stale_lookup s request reader hold)
  · rcases hreader with rfl | rfl
    · simpa [ReaderFits, reads_snoc] using hfits
    · exact trivial

theorem raceInvariant_store (options : IntrospectionCacheOptions) (as : List RaceAction)
    (s : RaceState σ) (request : Request) (value : CachedIntrospection) (readAt : Epoch)
    (hr : s.reader = .read value readAt) (h : RaceInvariant options as s) :
    RaceInvariant options (as ++ [.store]) { s with
      cache := s.cache.insert s.now request.key ⟨value, readAt⟩
      reader := .returned } := by
  obtain ⟨hoptions, hready, hnot, hstale, hfits⟩ := h
  refine ⟨by rw [insert_options, hoptions], ?_, ?_, ?_, trivial⟩
  · simpa [readsWrites_snoc] using hready
  · simpa [readsWritesClears_snoc] using hnot
  · intro hw
    cases readAt with
    | before =>
      simp only [ReaderFits, hr] at hfits
      obtain ⟨hclears, hentries, hrecency⟩ := hfits.2.2.1 hw
      simp only [straddles_snoc, hclears, true_and, or_true]
      constructor
      · intro hgiven hzero
        obtain ⟨k, entry, hlookup, _⟩ := hgiven
        have hsame : s.cache.insert s.now request.key ⟨value, .before⟩ = s.cache := by
          rw [IntrospectionCache.insert, hoptions, if_pos hzero]
        dsimp only at hlookup
        rw [hsame, hentries, AList.lookup_empty] at hlookup
        exact absurd hlookup (by simp)
      · intro hmax
        exact ⟨request.key, ⟨s.now, ⟨value, .before⟩⟩, insert_cleared s.now request.key _ s.cache
          hentries hrecency (by rw [hoptions]; exact hmax), rfl⟩
    | after =>
      simp only [ReaderFits, hr] at hfits
      have hnoClears : ¬ ReadsWritesClears as := fun h => hfits.2 (readsWrites_of_clears h)
      have hnoStraddle : ¬ Straddles as := fun h => hnoClears (clears_of_straddles h)
      simp only [straddles_snoc, hnoClears, hnoStraddle, and_false, or_self, false_and, iff_false]
      intro hall
      obtain ⟨k, entry, hlookup, hbefore⟩ := hall
      rcases insert_lookup s.now request.key _ s.cache k entry hlookup with ⟨_, rfl⟩ | hold
      · exact absurd hbefore (by simp)
      · exact hnoStraddle ((hstale hw).mp ⟨k, entry, hold, hbefore⟩).1

section
variable (options : IntrospectionCacheOptions) (as : List RaceAction) (s : RaceState σ)
  (h : RaceInvariant options as s)
include h

theorem raceInvariant_read (value : CachedIntrospection) (hr : s.reader = .missed) :
    RaceInvariant options (as ++ [.read]) { s with reader := .read value s.epoch } := by
  obtain ⟨hoptions, hready, hnot, hstale, hfits⟩ := h
  simp only [ReaderFits, hr] at hfits
  have hnoWrites : ¬ ReadsWrites as := fun h => hfits (reads_of_readsWrites h)
  have hnoStraddle : ¬ Straddles as := fun h =>
    hnoWrites (readsWrites_of_clears (clears_of_straddles h))
  refine ⟨hoptions, ?_, ?_, ?_, ?_⟩
  · simpa [readsWrites_snoc] using hready
  · simpa [readsWritesClears_snoc] using hnot
  · intro hw
    simpa [straddles_snoc, RaceState.Stale] using hstale hw
  · by_cases hw : s.writer = .ready
    · simp [ReaderFits, RaceState.epoch, hw, reads_snoc, straddles_snoc, hnoStraddle]
    · simp [ReaderFits, RaceState.epoch, hw, readsWrites_snoc, hnoWrites]

theorem raceInvariant_readError :
    RaceInvariant options (as ++ [.read]) { s with reader := .returned } := by
  obtain ⟨hoptions, hready, hnot, hstale, _⟩ := h
  refine ⟨hoptions, ?_, ?_, ?_, trivial⟩
  · simpa [readsWrites_snoc] using hready
  · simpa [readsWritesClears_snoc] using hnot
  · intro hw
    simpa [straddles_snoc, RaceState.Stale] using hstale hw

theorem raceInvariant_write (contents : σ) (hw : s.writer = .ready) :
    RaceInvariant options (as ++ [.write]) { s with contents, writer := .written } := by
  obtain ⟨hoptions, hready, hnot, hstale, hfits⟩ := h
  have hnoWrites := hready hw
  have hnoClears : ¬ ReadsWritesClears as := fun h => hnoWrites (readsWrites_of_clears h)
  refine ⟨hoptions, by simp, ?_, by simp, ?_⟩
  · simpa [readsWritesClears_snoc] using hnoClears
  · cases hr : s.reader with
    | ready | missed => simpa [ReaderFits, hr, reads_snoc] using hfits
    | returned => exact trivial
    | read value readAt =>
      cases readAt with
      | before =>
        simp only [ReaderFits, hr] at hfits
        simp [ReaderFits, reads_snoc, readsWrites_snoc, straddles_snoc, hfits.1, hfits.2.2.2]
      | after =>
        simp only [ReaderFits, hr] at hfits
        exact absurd hw hfits.1

theorem raceInvariant_clear (hw : s.writer = .written) :
    RaceInvariant options (as ++ [.clear])
      { s with cache := s.cache.clear, writer := .returned } := by
  obtain ⟨hoptions, hready, hnot, hstale, hfits⟩ := h
  have hnoClears := hnot (by rw [hw]; simp)
  have hnoStraddle : ¬ Straddles as := fun h => hnoClears (clears_of_straddles h)
  refine ⟨hoptions, by simp, by simp, ?_, ?_⟩
  · intro _
    simp only [straddles_snoc, hnoStraddle, reduceCtorEq, false_and, or_self, iff_false]
    intro hgiven
    obtain ⟨k, entry, hlookup, _⟩ := hgiven
    rw [clear_lookup] at hlookup
    exact absurd hlookup (by simp)
  · cases hr : s.reader with
    | ready | missed => simpa [ReaderFits, hr, reads_snoc] using hfits
    | returned => exact trivial
    | read value readAt =>
      cases readAt with
      | before =>
        simp only [ReaderFits, hr] at hfits
        have hwrites := hfits.2.1 (by rw [hw]; simp)
        simp [ReaderFits, reads_snoc, readsWrites_snoc, readsWritesClears_snoc, straddles_snoc,
          hfits.1, hwrites, hnoStraddle, IntrospectionCache.clear]
      | after =>
        simp only [ReaderFits, hr] at hfits
        simp [ReaderFits, readsWrites_snoc, hfits.2]

theorem raceInvariant_elapse (elapsed : Nat) :
    RaceInvariant options (as ++ [.elapse]) { s with now := s.now + elapsed } := by
  obtain ⟨hoptions, hready, hnot, hstale, hfits⟩ := h
  refine ⟨hoptions, ?_, ?_, ?_, ?_⟩
  · simpa [readsWrites_snoc] using hready
  · simpa [readsWritesClears_snoc] using hnot
  · intro hw
    simpa [straddles_snoc, RaceState.Stale] using hstale hw
  · cases hr : s.reader with
    | ready | missed => simpa [ReaderFits, hr, reads_snoc] using hfits
    | returned => simp [ReaderFits]
    | read value readAt =>
      cases readAt <;>
        simpa [ReaderFits, hr, reads_snoc, readsWrites_snoc, readsWritesClears_snoc,
          straddles_snoc] using hfits

end

theorem raceInvariant_step (db : Database σ Stream) (request : Request)
    (options : IntrospectionCacheOptions) (as : List RaceAction) (s : RaceState σ)
    (a : RaceAction) (t : RaceState σ) (hstep : RaceStep db request s a t)
    (h : RaceInvariant options as s) : RaceInvariant options (as ++ [a]) t := by
  cases hstep with
  | hit hr hlookup =>
    have hnext := raceInvariant_lookup options as s request .returned hr (.inr rfl) h
    rwa [hlookup] at hnext
  | miss hr hlookup =>
    have hnext := raceInvariant_lookup options as s request .missed hr (.inl rfl) h
    rwa [hlookup] at hnext
  | store hr => exact raceInvariant_store options as s request _ _ hr h
  | readOk hr _ => exact raceInvariant_read options as s h _ hr
  | readError _ _ => exact raceInvariant_readError options as s h
  | write contents hw => exact raceInvariant_write options as s h contents hw
  | clear hw => exact raceInvariant_clear options as s h hw
  | elapse => exact raceInvariant_elapse options as s h _

/-! ### Complete runs -/

/-- No cache entry holds a value read before the write, and so neither does the
answer of any later `ls` or `info`. -/
def NoOldValue (db : Database σ Stream) (s : RaceState σ) : Prop :=
  (∀ k entry, s.cache.entries.lookup k = some entry → entry.value.readAt ≠ .before) ∧
  ∀ now request cached, (cachedRead db s.contents now .after request s.cache).1 = .ok cached →
    cached.readAt ≠ .before

/-- In any interleaving of a cached read with a write, once the writer has returned
(and so when both have), no value read before the write can still be served,
exactly if the steps did not come in the order read, write, clear, store, or the
cache holds nothing at all. -/
theorem race_leaves_no_old_value_iff (db : Database σ Stream) (request : Request) (contents : σ)
    (cache : IntrospectionCache (Cached Epoch)) (now : Nat) (actions : List RaceAction)
    (s : RaceState σ) (hrun : Run (RaceStep db request) (RaceState.start contents cache now)
      actions s) (hwriter : s.writer = .returned) :
    NoOldValue db s ↔
      ¬ ([RaceAction.read, .write, .clear, .store].Sublist actions ∧
        cache.options.maxEntries ≠ some 0) := by
  have hstart : RaceInvariant cache.options [] (RaceState.start contents cache now) :=
    ⟨rfl, fun _ => by simp [ReadsWrites], fun _ => by simp [ReadsWritesClears],
      fun h => absurd h (by simp [RaceState.start]), by simp [ReaderFits, RaceState.start, Reads]⟩
  have hinv := hrun.history_invariant (raceInvariant_step db request cache.options) hstart
  have hstale := hinv.2.2.2.1 hwriter
  rw [show [RaceAction.read, .write, .clear, .store].Sublist actions ↔ Straddles actions from
    Iff.rfl, ← hstale]
  constructor
  · intro hgiven hall
    obtain ⟨hnone, _⟩ := hgiven
    obtain ⟨k, entry, hlookup, hbefore⟩ := hall
    exact hnone k entry hlookup hbefore
  · intro hfresh
    have hnone (k : Str) (entry : CacheEntry (Cached Epoch))
        (hlookup : s.cache.entries.lookup k = some entry) : entry.value.readAt ≠ .before :=
      fun hbefore => hfresh ⟨k, entry, hlookup, hbefore⟩
    refine ⟨hnone, fun now request cached hread => ?_⟩
    rcases cachedRead_value db s.contents now .after request s.cache cached hread with
      ⟨entry, hlookup, hvalue, _⟩ | ⟨_, hafter⟩
    · rw [← hvalue]
      exact hnone _ entry hlookup
    · rw [hafter]
      simp

/-- `info` of the users table against a write, in two orders of the steps. -/
def usersInfo : Request := .info "/main/users".toList

/-- The write comes before the read: what is stored is new. -/
theorem read_after_write_is_new :
    ∃ s, Run (RaceStep countingDb usersInfo) (RaceState.start 0 (new .default) 0)
        [.lookup, .write, .read, .clear, .store] s ∧ NoOldValue countingDb s := by
  have hmiss : RaceStep countingDb usersInfo (RaceState.start 0 (new .default) 0) .lookup _ :=
    .miss rfl rfl
  have hrun := Run.cons hmiss (.cons (.write 1 rfl) (.cons (.readOk rfl rfl) (.cons (.clear rfl)
    (.cons (.store rfl) (.nil _)))))
  exact ⟨_, hrun, (race_leaves_no_old_value_iff countingDb usersInfo 0 (new .default) 0 _ _ hrun
    rfl).mpr fun h => absurd h.1 (by decide)⟩

/-- The write and the clearing come between read and store: the old row count is
served once both calls have returned. -/
theorem read_before_write_stays :
    ∃ s, Run (RaceStep countingDb usersInfo) (RaceState.start 0 (new .default) 0)
        [.lookup, .read, .write, .clear, .store] s ∧
      s.reader = .returned ∧ s.writer = .returned ∧ s.contents = 1 ∧
      (cachedRead countingDb s.contents s.now .after usersInfo s.cache).1.map Cached.value =
        .ok (.Info (relationInfo "main".toList (usersWith 0))) ∧
      ¬ NoOldValue countingDb s := by
  refine ⟨_, .cons (.miss rfl rfl) (.cons (.readOk rfl rfl) (.cons (.write 1 rfl)
    (.cons (.clear rfl) (.cons (.store rfl) (.nil _))))), rfl, rfl, rfl, by decide, fun h => ?_⟩
  exact h.1 usersInfo.key _ rfl rfl

end FsspecDb.Fs
