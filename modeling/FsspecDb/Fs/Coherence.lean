import FsspecDb.Fs.DatabaseFs
import FsspecDb.Lib.Transition

/-!
# Cache coherence in sequence

Every live cache entry is the uncached answer, as long as each write that leaves
the cache alone changes no cached answer. The uploader of an opened handle is
such a write, and so is a write that fails half way.
-/

namespace FsspecDb.Fs
open IntrospectionCache Transition

variable {σ Stream γ : Type}

/-! ### What a cached read does -/

theorem lookupCached_hit (now : Nat) (request : Request) (cache : IntrospectionCache (Cached γ))
    (cached : Cached γ) (h : (lookupCached now request cache).1 = some cached) :
    ∃ entry, cache.entries.lookup request.key = some entry ∧ entry.value = cached ∧
      expired cache.options now entry = false := by
  unfold lookupCached at h
  cases hget : cache.get now request.key with
  | mk hit next =>
    cases hit with
    | none => simp [hget] at h
    | some found =>
      simp only [hget] at h
      split_ifs at h with hfits
      obtain rfl := Option.some.inj h
      exact get_hit now request.key cache found (by rw [hget])

theorem lookupCached_cache (now : Nat) (request : Request) (cache : IntrospectionCache (Cached γ)) :
    (lookupCached now request cache).2 = (cache.get now request.key).2 := by
  unfold lookupCached
  split
  · next hget => split <;> rw [hget]
  · next hget => rw [hget]

/- A successful cached read is a live entry, or was read now. -/
theorem cachedRead_value (db : Database σ Stream) (contents : σ) (now : Nat) (readAt : γ)
    (request : Request) (cache : IntrospectionCache (Cached γ)) (cached : Cached γ)
    (h : (cachedRead db contents now readAt request cache).1 = .ok cached) :
    (∃ entry, cache.entries.lookup request.key = some entry ∧ entry.value = cached ∧
      expired cache.options now entry = false) ∨
    (readDb db contents request = .ok cached.value ∧ cached.readAt = readAt) := by
  unfold cachedRead at h
  cases hlookup : lookupCached now request cache with
  | mk hit next =>
    cases hit with
    | some found =>
      simp only [hlookup, Except.ok.injEq] at h
      obtain rfl := h
      exact .inl (lookupCached_hit now request cache found (by rw [hlookup]))
    | none =>
      cases hread : readDb db contents request with
      | error err => simp [hlookup, hread] at h
      | ok value =>
        simp only [hlookup, hread, Except.ok.injEq] at h
        obtain rfl := h
        exact .inr ⟨rfl, rfl⟩

/- An entry after a cached read was there before, or is what was read now. -/
theorem cachedRead_lookup (db : Database σ Stream) (contents : σ) (now : Nat) (readAt : γ)
    (request : Request) (cache : IntrospectionCache (Cached γ)) (k : Str)
    (entry : CacheEntry (Cached γ))
    (h : (cachedRead db contents now readAt request cache).2.entries.lookup k = some entry) :
    cache.entries.lookup k = some entry ∨
      (k = request.key ∧ ∃ value, entry = ⟨now, ⟨value, readAt⟩⟩ ∧
        readDb db contents request = .ok value) := by
  have hcache := lookupCached_cache now request cache
  unfold cachedRead at h
  cases hlookup : lookupCached now request cache with
  | mk hit next =>
    rw [hlookup] at hcache
    dsimp only at hcache
    cases hit with
    | some found =>
      simp only [hlookup] at h
      rw [hcache] at h
      exact .inl (get_lookup now request.key cache k entry h)
    | none =>
      cases hread : readDb db contents request with
      | error err =>
        simp only [hlookup, hread] at h
        rw [hcache] at h
        exact .inl (get_lookup now request.key cache k entry h)
      | ok value =>
        simp only [hlookup, hread] at h
        rcases insert_lookup now request.key _ next k entry h with ⟨hk, rfl⟩ | hold
        · exact .inr ⟨hk, value, rfl, rfl⟩
        · rw [hcache] at hold
          exact .inl (get_lookup now request.key cache k entry hold)

theorem cachedRead_options (db : Database σ Stream) (contents : σ) (now : Nat) (readAt : γ)
    (request : Request) (cache : IntrospectionCache (Cached γ)) :
    (cachedRead db contents now readAt request cache).2.options = cache.options := by
  have hcache := lookupCached_cache now request cache
  unfold cachedRead
  cases hlookup : lookupCached now request cache with
  | mk hit next =>
    rw [hlookup] at hcache
    dsimp only at hcache
    cases hit with
    | some found => simp only [hcache, get_options]
    | none => cases readDb db contents request <;> simp only [hcache, insert_options, get_options]

/-! ### The invariant -/

/-- Every entry that can still be served is the uncached answer. -/
def Coherent (db : Database σ Stream) (s : FsState σ γ) : Prop :=
  ∀ request entry, s.cache.entries.lookup request.key = some entry →
    expired s.cache.options s.now entry = false →
    readDb db s.contents request = .ok entry.value.value

/-- With the new contents, the answers of the entries that can still be served are
what they were. -/
def Unseen (db : Database σ Stream) (s : FsState σ γ) (contents : σ) : Prop :=
  ∀ request entry, s.cache.entries.lookup request.key = some entry →
    expired s.cache.options s.now entry = false →
    readDb db contents request = readDb db s.contents request

/-- The write of the call, if it leaves the cache alone, changes no cached answer. -/
def Harmless (db : Database σ Stream) (decoder : Decoder Stream) (s : FsState σ γ) : Op → Prop
  | .writeBytes path data mode => ∀ err,
    (writeBytesToDatabase db decoder s.contents path data mode).1 = .error err →
      Unseen db s (writeBytesToDatabase db decoder s.contents path data mode).2
  | .putFile file remote => ∀ data err, file = .ok data →
    (writeBytesToDatabase db decoder s.contents remote data .Truncate).1 = .error err →
      Unseen db s (writeBytesToDatabase db decoder s.contents remote data .Truncate).2
  | .commit handle => ∀ h, openHandle s handle = some h →
    Unseen db s (writeBytesToDatabase db decoder s.contents h.path h.buffer h.mode).2
  | _ => True

def FsStep (db : Database σ Stream) (decoder : Decoder Stream) : System (FsState σ Unit) Op :=
  fun s op t => t = (exec db decoder () s op).2

def opened (contents : σ) (options : IntrospectionCacheOptions) (now : Nat) : FsState σ Unit :=
  ⟨contents, IntrospectionCache.new options, now, []⟩

theorem coherent_cleared (db : Database σ Stream) (s : FsState σ γ)
    (hempty : ∀ k, s.cache.entries.lookup k = none) : Coherent db s := by
  intro request entry h
  rw [hempty] at h
  exact absurd h (by simp)

/- New contents that no live entry notices keep the invariant. -/
theorem coherent_unseen (db : Database σ Stream) (s : FsState σ γ) (contents : σ)
    (handles : List WriteHandle) (hs : Coherent db s) (h : Unseen db s contents) :
    Coherent db { s with contents, handles } :=
  fun request entry hlookup hlive => (h request entry hlookup hlive).trans
    (hs request entry hlookup hlive)

theorem expired_mono (options : IntrospectionCacheOptions) (now elapsed : Nat)
    {V : Type} (entry : CacheEntry V) (h : expired options (now + elapsed) entry = false) :
    expired options now entry = false := by
  unfold expired at h ⊢
  cases httl : options.ttl with
  | none => rfl
  | some ttl =>
    simp only [httl, Option.any_some, decide_eq_false_iff_not] at h ⊢
    omega

theorem coherent_writeBytes (db : Database σ Stream) (decoder : Decoder Stream) (path : Str)
    (data : List Byte) (mode : InsertMode) (s : FsState σ γ) (hs : Coherent db s)
    (h : ∀ err, (writeBytesToDatabase db decoder s.contents path data mode).1 = .error err →
      Unseen db s (writeBytesToDatabase db decoder s.contents path data mode).2) :
    Coherent db (writeBytes db decoder path data mode s).2 := by
  unfold writeBytes
  cases hwrite : writeBytesToDatabase db decoder s.contents path data mode with
  | mk result contents =>
    rw [hwrite] at h
    cases result with
    | error err => exact coherent_unseen db s contents s.handles hs (h err rfl)
    | ok written => exact coherent_cleared db _ fun k => clear_lookup s.cache k

theorem coherent_step (db : Database σ Stream) (decoder : Decoder Stream) (s : FsState σ Unit)
    (op : Op) (t : FsState σ Unit) (h : restrict (FsStep db decoder) (Harmless db decoder) s op t)
    (hs : Coherent db s) : Coherent db t := by
  obtain ⟨rfl, hharmless⟩ := h
  cases op with
  | request request =>
    have hcache : Coherent db
        { s with cache := (cachedRead db s.contents s.now () request s.cache).2 } := by
      intro request' entry hlookup hlive
      dsimp only at hlookup hlive ⊢
      rw [cachedRead_options] at hlive
      rcases cachedRead_lookup db s.contents s.now () request s.cache _ entry hlookup with
        hold | ⟨hk, value, rfl, hread⟩
      · exact hs request' entry hold hlive
      · rw [Request.key_injective _ _ hk]
        exact hread
    simp only [exec]
    cases hread : cachedRead db s.contents s.now () request s.cache with
    | mk result cache =>
      rw [hread] at hcache
      cases result <;> exact hcache
  | writeBytes path data mode =>
    have hwrite := coherent_writeBytes db decoder path data mode s hs hharmless
    simp only [exec]
    cases hresult : writeBytes db decoder path data mode s with
    | mk result next =>
      rw [hresult] at hwrite
      cases result <;> exact hwrite
  | putFile file remote =>
    cases file with
    | error err => exact hs
    | ok data =>
      have hwrite := coherent_writeBytes db decoder remote data .Truncate s hs fun err =>
        hharmless data err rfl
      cases hresult : writeBytes db decoder remote data .Truncate s with
      | mk result next =>
        rw [hresult] at hwrite
        simp only [exec, putFile, hresult]
        cases result with
        | error err => exact hwrite
        | ok _ => exact coherent_cleared db _ fun k => clear_lookup next.cache k
  | invalidateCache => exact coherent_cleared db _ fun k => clear_lookup s.cache k
  | openWrite path mode autocommit =>
    simp only [exec]
    cases openWriteDb db s.contents path mode autocommit <;> exact hs
  | handleWrite handle data =>
    simp only [exec]
    cases openHandle s handle <;> exact hs
  | commit handle =>
    cases hhandle : openHandle s handle with
    | none =>
      simp only [exec, hhandle]
      exact hs
    | some h =>
      have hunseen := hharmless h hhandle
      cases hwrite : writeBytesToDatabase db decoder s.contents h.path h.buffer h.mode with
      | mk result contents =>
        rw [hwrite] at hunseen
        simp only [exec, hhandle, hwrite]
        cases result <;> exact coherent_unseen db s contents _ hs hunseen
  | advance elapsed =>
    intro request entry hlookup hlive
    exact hs request entry hlookup (expired_mono _ _ elapsed entry hlive)

/-- In every run in which each write that leaves the cache alone changes no cached
answer, a successful `ls` or `info` is what `ls_db` or `info_db` would return. -/
theorem cached_answers_current (db : Database σ Stream) (decoder : Decoder Stream) (contents : σ)
    (options : IntrospectionCacheOptions) (now : Nat) (ops : List Op) (s : FsState σ Unit)
    (hrun : Run (restrict (FsStep db decoder) (Harmless db decoder)) (opened contents options now)
      ops s) :
    (∀ path value, (exec db decoder () s (.request (.ls path))).1 = .value value →
      (lsDb db s.contents path).map .Listing = .ok value) ∧
    ∀ path value, (exec db decoder () s (.request (.info path))).1 = .value value →
      (infoDb db s.contents path).map .Info = .ok value := by
  have hcoherent : Coherent db s :=
    hrun.invariant (coherent_step db decoder) (coherent_cleared db _ fun k => AList.lookup_empty k)
  have hanswer (request : Request) (value : CachedIntrospection)
      (h : (exec db decoder () s (.request request)).1 = .value value) :
      readDb db s.contents request = .ok value := by
    simp only [exec] at h
    cases hread : cachedRead db s.contents s.now () request s.cache with
    | mk result cache =>
      cases result with
      | error err => simp [hread] at h
      | ok cached =>
        simp only [hread, Answer.value.injEq] at h
        rcases cachedRead_value db s.contents s.now () request s.cache cached (by rw [hread]) with
          ⟨entry, hlookup, hvalue, hlive⟩ | ⟨hnow, _⟩
        · rw [hcoherent request entry hlookup hlive, hvalue, h]
        · rw [hnow, h]
  exact ⟨fun path => hanswer (.ls path), fun path => hanswer (.info path)⟩

def usersWith (n : Nat) : RelationInfo :=
  ⟨"users".toList, .Table, some (UInt64.ofNat n), none, none⟩

/-- A database with one table, `main.users`, whose contents are its number of rows
and whose streams have one row a byte. -/
def countingDb : Database Nat (List Byte) where
  dialect := .Sqlite
  listSchemas _ := .ok [⟨"main".toList, none, none⟩]
  listRelations n _ := .ok [usersWith n]
  listColumns _ _ _ := .ok []
  listIndexes _ _ _ := .ok []
  listConstraints _ _ _ := .ok []
  relationInfo n _ relation :=
    if relation = "users".toList then .ok (usersWith n)
    else .error (.NotFound ("relation not found: ".toList ++ relation))
  viewDefinition _ _ _ := .error (.InvalidArgument "relation is not a view".toList)
  insert n _ _ rows mode :=
    (.ok (UInt64.ofNat rows.length), if mode = .Append then n + rows.length else rows.length)
  viewDependencies _ := []

def countingDecoder : Decoder (List Byte) where
  parquetToArrow _ := .error (.Parquet "not a parquet file".toList)
  ipcToArrow _ := .error (.Arrow "not an arrow stream".toList)
  csvToArrow data _ := .ok data
  jsonlToArrow data _ := .ok data

/-- The row count that `info` gives after `write_bytes` is the new one. -/
theorem write_bytes_is_seen :
    ∃ s : FsState Nat Unit,
      Run (restrict (FsStep countingDb countingDecoder) (Harmless countingDb countingDecoder))
        (opened 0 .default 0) [.request (.info "/main/users".toList),
          .writeBytes "/main/users.csv".toList [0x31] .Append] s ∧
      (infoDb countingDb s.contents "/main/users".toList).map CachedIntrospection.Info =
        .ok (.Info (relationInfo "main".toList (usersWith 1))) := by
  let first := (exec countingDb countingDecoder () (opened 0 .default 0)
    (.request (.info "/main/users".toList))).2
  have hwritten : (writeBytesToDatabase countingDb countingDecoder first.contents
      "/main/users.csv".toList [0x31] .Append).1 = .ok 1 := by decide
  have hrun : Run (restrict (FsStep countingDb countingDecoder)
      (Harmless countingDb countingDecoder)) (opened 0 .default 0)
      [.request (.info "/main/users".toList), .writeBytes "/main/users.csv".toList [0x31] .Append]
      (exec countingDb countingDecoder () first
        (.writeBytes "/main/users.csv".toList [0x31] .Append)).2 :=
    .cons ⟨rfl, trivial⟩ (.cons ⟨rfl, fun err herr => by
      rw [hwritten] at herr
      exact absurd herr (by simp)⟩ (.nil _))
  exact ⟨_, hrun, (cached_answers_current countingDb countingDecoder 0 .default 0 _ _ hrun).2 _ _
    (by decide)⟩

/-- A handle opened for appending is committed after an `info`: the next `info`
still has the old row count. -/
theorem commit_is_not_seen :
    ∃ s : FsState Nat Unit, Run (FsStep countingDb countingDecoder) (opened 0 .default 0)
        [.request (.info "/main/users".toList), .openWrite "/main/users.csv".toList .Append true,
          .handleWrite 0 [0x31], .commit 0] s ∧
      (exec countingDb countingDecoder () s (.request (.info "/main/users".toList))).1 =
        .value (.Info (relationInfo "main".toList (usersWith 0))) ∧
      infoDb countingDb s.contents "/main/users".toList =
        .ok (relationInfo "main".toList (usersWith 1)) ∧
      relationInfo "main".toList (usersWith 0) ≠ relationInfo "main".toList (usersWith 1) :=
  ⟨_, .cons rfl (.cons rfl (.cons rfl (.cons rfl (.nil _)))), by decide, by decide, by decide⟩

end FsspecDb.Fs
