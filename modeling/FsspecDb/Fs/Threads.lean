import FsspecDb.Fs.Coherence
import Mathlib.Logic.Function.Basic

/-!
# Any number of threads on one DatabaseFs (fs.rs)

Each thread calls `ls`, `info`, `write_bytes` or `invalidate_cache`; a call takes the lock of the
cache for a lookup, an insert or a clear, and is at the database without it. The steps of the
threads and of other connections come in any order.
-/

namespace FsspecDb.Fs
open IntrospectionCache Transition

variable {T σ Stream : Type}

/-- What a call returned: the version of the contents that the value was read from, and the last
version whose `write_bytes` had returned when the call began. No part of the code but the value. -/
structure Returned where
  request : Request
  value : CachedIntrospection
  readAt : Nat
  finished : Nat
  deriving Repr, DecidableEq

/-- Where a thread is: between calls, after a miss, with the value read, or in `write_bytes`
between the database and the cache. -/
inductive ThreadPhase where
  | idle
  | missed (request : Request) (finished : Nat)
  | read (answer : Returned)
  | written (version : Nat)

/-- The database with its earlier contents, the cache, the threads, and the versions at the last
clear of the cache and of the last write that returned. -/
structure ThreadState (T σ : Type) where
  past : List σ
  contents : σ
  cache : IntrospectionCache (Cached Nat)
  now : Nat
  phase : T → ThreadPhase
  cleared : Nat
  finished : Nat

namespace ThreadState

def version (s : ThreadState T σ) : Nat := s.past.length

def start (contents : σ) (options : IntrospectionCacheOptions) (now : Nat) : ThreadState T σ :=
  ⟨[], contents, new options, now, fun _ => .idle, 0, 0⟩

/- A change of the contents makes a new version. -/
def change (s : ThreadState T σ) (contents : σ) : ThreadState T σ :=
  { s with past := s.past ++ [s.contents], contents }

def clear (s : ThreadState T σ) : ThreadState T σ :=
  { s with cache := s.cache.clear, cleared := s.version }

/- The insert of a value that was read. -/
def put (s : ThreadState T σ) (answer : Returned) : ThreadState T σ :=
  let cached : Cached Nat := ⟨answer.value, answer.readAt⟩
  { s with cache := s.cache.insert s.now answer.request.key cached }

def goto [DecidableEq T] (s : ThreadState T σ) (t : T) (phase : ThreadPhase) : ThreadState T σ :=
  { s with phase := Function.update s.phase t phase }

end ThreadState

/-- The labels: a call that returns a value says whether it put the value into the cache. -/
inductive ThreadAction (T : Type) where
  | miss (t : T)
  | read (t : T)
  | returns (t : T) (answer : Returned) (stored : Bool)
  | fails (t : T)
  | write (t : T)
  | writeFails (t : T)
  | clear (t : T)
  | invalidate (t : T)
  | external
  | elapse

inductive ThreadStep [DecidableEq T] (db : Database σ Stream) :
    System (ThreadState T σ) (ThreadAction T) where
  | hit {s : ThreadState T σ} {t request cached cache} (hp : s.phase t = .idle)
      (h : lookupCached s.now request s.cache = (some cached, cache)) :
      ThreadStep db s (.returns t ⟨request, cached.value, cached.readAt, s.finished⟩ false)
        { s with cache }
  | miss {s : ThreadState T σ} {t request cache} (hp : s.phase t = .idle)
      (h : lookupCached s.now request s.cache = (none, cache)) :
      ThreadStep db s (.miss t)
        (ThreadState.goto { s with cache } t (.missed request s.finished))
  | read {s : ThreadState T σ} {t request finished value}
      (hp : s.phase t = .missed request finished) (h : readDb db s.contents request = .ok value) :
      ThreadStep db s (.read t) (s.goto t (.read ⟨request, value, s.version, finished⟩))
  | fails {s : ThreadState T σ} {t request finished err}
      (hp : s.phase t = .missed request finished) (h : readDb db s.contents request = .error err) :
      ThreadStep db s (.fails t) (s.goto t .idle)
  | store {s : ThreadState T σ} {t answer} (hp : s.phase t = .read answer) :
      ThreadStep db s (.returns t answer true) ((s.put answer).goto t .idle)
  | write {s : ThreadState T σ} {t} (contents : σ) (hp : s.phase t = .idle) :
      ThreadStep db s (.write t) ((s.change contents).goto t (.written (s.version + 1)))
  | writeFails {s : ThreadState T σ} {t} (contents : σ) (hp : s.phase t = .idle) :
      ThreadStep db s (.writeFails t) (s.change contents)
  | clear {s : ThreadState T σ} {t version} (hp : s.phase t = .written version) :
      ThreadStep db s (.clear t)
        (ThreadState.goto { s.clear with finished := max s.finished version } t .idle)
  | invalidate {s : ThreadState T σ} {t} (hp : s.phase t = .idle) :
      ThreadStep db s (.invalidate t) s.clear
  | external {s : ThreadState T σ} (contents : σ) :
      ThreadStep db s .external (s.change contents)
  | elapse {s : ThreadState T σ} {elapsed} :
      ThreadStep db s .elapse { s with now := s.now + elapsed }

/-! ### Every value was once the answer of the database -/

/-- The database told this value of the request at that version. -/
def Answered (db : Database σ Stream) (s : ThreadState T σ) (version : Nat) (request : Request)
    (value : CachedIntrospection) : Prop :=
  ∃ contents, (s.past ++ [s.contents])[version]? = some contents ∧
    readDb db contents request = .ok value

structure Consistent (db : Database σ Stream) (s : ThreadState T σ) : Prop where
  entries : ∀ request entry, s.cache.entries.lookup request.key = some entry →
    Answered db s entry.value.readAt request entry.value.value
  reading : ∀ t answer, s.phase t = .read answer →
    Answered db s answer.readAt answer.request answer.value ∧ answer.finished ≤ answer.readAt
  missed : ∀ t request finished, s.phase t = .missed request finished → finished ≤ s.version
  written : ∀ t version, s.phase t = .written version → version ≤ s.version
  finished : s.finished ≤ s.cleared
  cleared : s.cleared ≤ s.version

theorem Answered.change {db : Database σ Stream} {s : ThreadState T σ} {version : Nat}
    {request : Request} {value : CachedIntrospection}
    (h : Answered db s version request value) (contents : σ) :
    Answered db (s.change contents) version request value := by
  obtain ⟨found, hfound, hread⟩ := h
  refine ⟨found, ?_, hread⟩
  have hlt := (List.getElem?_eq_some_iff.mp hfound).1
  rw [ThreadState.change, List.getElem?_append_left hlt]
  exact hfound

theorem consistent_change {db : Database σ Stream} {s : ThreadState T σ}
    (hs : Consistent db s) (contents : σ) : Consistent db (s.change contents) := by
  have hversion : (s.change contents).version = s.version + 1 := by
    rw [ThreadState.version, ThreadState.change, List.length_append, List.length_singleton]
    rfl
  refine ⟨fun request entry h => (hs.entries request entry h).change contents,
    fun t answer h => ⟨(hs.reading t answer h).1.change contents, (hs.reading t answer h).2⟩,
    fun t request finished h => ?_, fun t version h => ?_, hs.finished, ?_⟩
  · have hle := hs.missed t request finished h
    omega
  · have hle := hs.written t version h
    omega
  · have hle : s.cleared ≤ s.version := hs.cleared
    have hsame : (s.change contents).cleared = s.cleared := rfl
    omega

/- A cache whose entries were there before. -/
theorem consistent_cache {db : Database σ Stream} {s : ThreadState T σ} (hs : Consistent db s)
    (cache : IntrospectionCache (Cached Nat))
    (h : ∀ request entry, cache.entries.lookup request.key = some entry →
      Answered db s entry.value.readAt request entry.value.value) :
    Consistent db { s with cache } :=
  ⟨h, hs.reading, hs.missed, hs.written, hs.finished, hs.cleared⟩

theorem consistent_clear {db : Database σ Stream} {s : ThreadState T σ} (hs : Consistent db s) :
    Consistent db s.clear := by
  refine ⟨fun request entry h => ?_, hs.reading, hs.missed, hs.written, ?_, Nat.le_refl _⟩
  · simp only [ThreadState.clear, clear_lookup, reduceCtorEq] at h
  · exact Nat.le_trans hs.finished hs.cleared

/- A thread that goes to a phase of which the invariant holds. -/
theorem consistent_goto [DecidableEq T] {db : Database σ Stream} {s : ThreadState T σ}
    (hs : Consistent db s) (t : T) (phase : ThreadPhase)
    (hread : ∀ answer, phase = .read answer →
      Answered db s answer.readAt answer.request answer.value ∧ answer.finished ≤ answer.readAt)
    (hmissed : ∀ request finished, phase = .missed request finished → finished ≤ s.version)
    (hwritten : ∀ version, phase = .written version → version ≤ s.version) :
    Consistent db (s.goto t phase) := by
  have hphase (u : T) (other : ThreadPhase) (h : (s.goto t phase).phase u = other) :
      phase = other ∨ s.phase u = other := by
    have hgoto : (s.goto t phase).phase u = Function.update s.phase t phase u := rfl
    rw [hgoto] at h
    by_cases hu : u = t
    · rw [hu, Function.update_self] at h
      exact .inl h
    · rw [Function.update_of_ne hu] at h
      exact .inr h
  refine ⟨hs.entries, fun u answer h => ?_, fun u request finished h => ?_, fun u version h => ?_,
    hs.finished, hs.cleared⟩
  · rcases hphase u _ h with h | h
    · exact hread answer h
    · exact hs.reading u answer h
  · rcases hphase u _ h with h | h
    · exact hmissed request finished h
    · exact hs.missed u request finished h
  · rcases hphase u _ h with h | h
    · exact hwritten version h
    · exact hs.written u version h

theorem consistent_idle [DecidableEq T] {db : Database σ Stream} {s : ThreadState T σ}
    (hs : Consistent db s) (t : T) : Consistent db (s.goto t .idle) :=
  consistent_goto hs t .idle (fun _ h => by cases h) (fun _ _ h => by cases h)
    (fun _ h => by cases h)

theorem lookup_entries (now : Nat) (request : Request)
    (cache next : IntrospectionCache (Cached Nat))
    (hit : Option (Cached Nat)) (h : lookupCached now request cache = (hit, next)) (k : Str)
    (entry : CacheEntry (Cached Nat)) (hentry : next.entries.lookup k = some entry) :
    cache.entries.lookup k = some entry := by
  have hcache := lookupCached_cache now request cache
  rw [h] at hcache
  dsimp only at hcache
  rw [hcache] at hentry
  exact get_lookup now request.key cache k entry hentry

/- An entry after the insert is the value that was read, or was there before. -/
theorem put_entries (s : ThreadState T σ) (answer : Returned) (request : Request)
    (entry : CacheEntry (Cached Nat))
    (h : (s.put answer).cache.entries.lookup request.key = some entry) :
    (request = answer.request ∧ entry.value = ⟨answer.value, answer.readAt⟩) ∨
      s.cache.entries.lookup request.key = some entry := by
  rcases insert_lookup s.now answer.request.key _ s.cache request.key entry h with
    ⟨hkey, hentry⟩ | hold
  · exact .inl ⟨Request.key_injective _ _ hkey, by rw [hentry]⟩
  · exact .inr hold

section
variable [DecidableEq T] (db : Database σ Stream)

theorem consistent_step (s : ThreadState T σ) (a : ThreadAction T) (u : ThreadState T σ)
    (h : ThreadStep db s a u) (hs : Consistent db s) : Consistent db u := by
  cases h with
  | hit hp hlookup =>
    refine consistent_cache hs _ fun request entry hentry => ?_
    exact hs.entries request entry (lookup_entries _ _ _ _ _ hlookup _ entry hentry)
  | @miss _ t request cache hp hlookup =>
    have hlooked := consistent_cache hs cache fun request entry hentry =>
      hs.entries request entry (lookup_entries _ _ _ _ _ hlookup _ entry hentry)
    refine consistent_goto hlooked t _ (fun _ h => by cases h) (fun request finished h => ?_)
      (fun _ h => by cases h)
    rw [← (ThreadPhase.missed.inj h).2]
    exact Nat.le_trans hs.finished hs.cleared
  | @read _ t request finished value hp hread =>
    refine consistent_goto hs t _ (fun answer h => ?_) (fun _ _ h => by cases h)
      (fun _ h => by cases h)
    rw [← ThreadPhase.read.inj h]
    refine ⟨⟨s.contents, ?_, hread⟩, hs.missed t request finished hp⟩
    exact List.getElem?_concat_length
  | fails hp hread => exact consistent_idle hs _
  | @store _ t answer hp =>
    refine consistent_idle (consistent_cache hs _ fun request entry hentry => ?_) t
    rcases put_entries s answer request entry hentry with ⟨hrequest, hvalue⟩ | hold
    · rw [hvalue, hrequest]
      exact (hs.reading t answer hp).1
    · exact hs.entries request entry hold
  | @write _ t contents hp =>
    refine consistent_goto (consistent_change hs contents) t _ (fun _ h => by cases h)
      (fun _ _ h => by cases h) (fun version h => ?_)
    rw [← ThreadPhase.written.inj h, ThreadState.version, ThreadState.version, ThreadState.change,
      List.length_append, List.length_singleton]
  | writeFails contents hp => exact consistent_change hs contents
  | @clear _ t version hp =>
    have hcleared := consistent_clear hs
    have hmax : max s.finished version ≤ s.version :=
      Nat.max_le.mpr ⟨Nat.le_trans hs.finished hs.cleared, hs.written t version hp⟩
    have hfinished : Consistent db { s.clear with finished := max s.finished version } :=
      ⟨hcleared.entries, hcleared.reading, hcleared.missed, hcleared.written, hmax,
        hcleared.cleared⟩
    exact consistent_idle hfinished t
  | invalidate hp => exact consistent_clear hs
  | external contents => exact consistent_change hs contents
  | elapse =>
    exact ⟨hs.entries, hs.reading, hs.missed, hs.written, hs.finished, hs.cleared⟩

omit [DecidableEq T] in
theorem consistent_start (contents : σ) (options : IntrospectionCacheOptions) (now : Nat) :
    Consistent db (ThreadState.start contents options now : ThreadState T σ) :=
  ⟨fun request entry h => (by simp [ThreadState.start, new] at h),
    fun t answer h => (by cases h), fun t request finished h => (by cases h),
    fun t version h => (by cases h), Nat.le_refl 0, Nat.le_refl 0⟩

/-! ### Finished writes are seen -/

/-- A value goes into the cache only if it was read after the last clear. -/
def Prompt (s : ThreadState T σ) : ThreadAction T → Prop
  | .returns _ answer true => s.cleared ≤ answer.readAt
  | _ => True

/-- Every entry was read after the last clear. -/
def AllRecent (s : ThreadState T σ) : Prop :=
  ∀ request : Request, ∀ entry, s.cache.entries.lookup request.key = some entry →
    s.cleared ≤ entry.value.readAt

theorem allRecent_step (s : ThreadState T σ) (a : ThreadAction T) (u : ThreadState T σ)
    (h : restrict (ThreadStep db) Prompt s a u) (hs : AllRecent s) : AllRecent u := by
  obtain ⟨hstep, hprompt⟩ := h
  cases hstep with
  | hit hp hlookup | miss hp hlookup =>
    intro request entry hentry
    exact hs request entry (lookup_entries _ _ _ _ _ hlookup _ entry hentry)
  | @store _ t answer hp =>
    intro request entry hentry
    rcases put_entries s answer request entry hentry with ⟨_, hvalue⟩ | hold
    · rw [hvalue]
      exact hprompt
    · exact hs request entry hold
  | clear hp | invalidate hp =>
    intro request entry hentry
    have hnone : s.cache.clear.entries.lookup request.key = some entry := hentry
    rw [clear_lookup] at hnone
    cases hnone
  | _ => exact hs

end

/-- With any number of threads and other connections, in every order of the steps: what `ls` and
`info` return was once the answer of the database, and a value that the call itself read is not
older than the writes that had returned when it began. A value from the cache is not either, if no
thread ever stores a value that was read before a clear. -/
theorem answers_of_threads [DecidableEq T] (db : Database σ Stream) (contents : σ)
    (options : IntrospectionCacheOptions) (now : Nat) :
    (∀ as (s : ThreadState T σ), Run (ThreadStep db) (.start contents options now) as s →
      ∀ t answer stored u, ThreadStep db s (.returns t answer stored) u →
        Answered db u answer.readAt answer.request answer.value ∧
          (stored = true → answer.finished ≤ answer.readAt)) ∧
    ∀ as (s : ThreadState T σ),
      Run (restrict (ThreadStep db) Prompt) (.start contents options now) as s →
        ∀ t answer stored u, ThreadStep db s (.returns t answer stored) u →
          answer.finished ≤ answer.readAt := by
  have hrun (as : List (ThreadAction T)) (s : ThreadState T σ)
      (h : Run (ThreadStep db) (.start contents options now) as s) : Consistent db s :=
    h.invariant (consistent_step db) (consistent_start db contents options now)
  refine ⟨fun as s h t answer stored u hstep => ?_, fun as s h t answer stored u hstep => ?_⟩
  · have hs := hrun as s h
    cases hstep with
    | hit hp hlookup =>
      obtain ⟨entry, hentry, hvalue, _⟩ := lookupCached_hit _ _ _ _ (by rw [hlookup])
      rw [← hvalue]
      exact ⟨hs.entries _ entry hentry, fun h => by cases h⟩
    | store hp => exact ⟨(hs.reading t answer hp).1, fun _ => (hs.reading t answer hp).2⟩
  · have hs : Consistent db s ∧ AllRecent s := by
      refine h.invariant (I := fun s => Consistent db s ∧ AllRecent s) ?_
        ⟨consistent_start db contents options now, fun request entry hentry => ?_⟩
      · intro s a u hstep hboth
        exact ⟨consistent_step db s a u hstep.1 hboth.1, allRecent_step db s a u hstep hboth.2⟩
      · simp [ThreadState.start, new] at hentry
    cases hstep with
    | hit hp hlookup =>
      obtain ⟨entry, hentry, hvalue, _⟩ := lookupCached_hit _ _ _ _ (by rw [hlookup])
      rw [← hvalue]
      exact Nat.le_trans hs.1.finished (hs.2 _ entry hentry)
    | store hp => exact (hs.1.reading t answer hp).2

/- One thread misses, another connection writes, and the thread reads and stores what is new. -/
theorem answers_of_threads_users :
    ∃ (s u : ThreadState Bool Nat) (answer : Returned),
      Run (ThreadStep countingDb) (.start 0 .default 0) [.miss false, .external, .read false] s ∧
      ThreadStep countingDb s (.returns false answer true) u ∧
      Answered countingDb u 1 (.info "/main/users".toList) answer.value ∧
      answer.finished ≤ 1 := by
  let missed : ThreadState Bool Nat := ThreadState.goto
    { (ThreadState.start 0 .default 0 : ThreadState Bool Nat) with
      cache := (lookupCached 0 (.info "/main/users".toList)
        (ThreadState.start 0 .default 0 : ThreadState Bool Nat).cache).2 }
    false (.missed (.info "/main/users".toList) 0)
  let answer : Returned :=
    ⟨.info "/main/users".toList, .Info (relationInfo "main".toList (usersWith 1)), 1, 0⟩
  let reading : ThreadState Bool Nat := (missed.change 1).goto false (.read answer)
  have hrun : Run (ThreadStep countingDb) (.start 0 .default 0)
      [.miss false, .external, .read false] reading :=
    .cons (.miss rfl rfl) (.cons (.external 1) (.cons (.read rfl rfl) (.nil _)))
  have hstep : ThreadStep countingDb reading (.returns false answer true)
      ((reading.put answer).goto false .idle) := .store rfl
  have hanswer := (answers_of_threads countingDb 0 .default 0).1 _ reading hrun false answer true _
    hstep
  exact ⟨reading, _, answer, hrun, hstep, hanswer.1, hanswer.2 rfl⟩

end FsspecDb.Fs
