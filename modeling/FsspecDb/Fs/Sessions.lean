import FsspecDb.Fs.Writes
import FsspecDb.Lib.Mealy

/-!
# Sessions of a filesystem (spec.py)

Any number of files open for writing beside `pipe_file`, `put_file`, the listings and changes by
others. Whatever way it takes, a write is one step of the database, made when it is finished.
-/

namespace FsspecDb.Fs

variable {σ Stream : Type}

/-- The filesystem and the files opened for writing in their order, `none` for one that is done
with. -/
structure Session (σ : Type) where
  fs : PyFs σ
  files : List (Option PyHandle)

inductive SessionOp (σ : Type) where
  | pipe (path : Str) (value : List Byte) (mode : Str) (kept : Bool)
  | put (source : LocalFile) (rpath mode : Str) (callback kept : Bool)
  | openFile (path : Str) (mode : WriteMode) (autocommit : Bool)
  | write (file : Nat) (data : List Byte)
  | finish (file : Nat)
  | exit (file : Nat) (exception : Bool)
  | discard (file : Nat)
  | complete (commit : Bool) (files : List Nat)
  | other (op : PyOp σ)

/- Whether a file can be finished again after its write has failed; `retries` is for the files
of Rust. -/
def PyHandle.stays (retries : Bool) : PyHandle → Bool
  | .deferred _ _ _ => true
  | .rust _ => retries

namespace Session

section
variable (db : Database σ Stream) (decoder : Decoder Stream) (retries : Bool)

/-- The close of a file, or the commit of a deferred one. -/
def finish (i : Nat) (s : Session σ) : Except PyErr Unit × Session σ :=
  match s.files[i]?.join with
  | none => (.ok (), s)
  | some handle =>
    match handle.finish db decoder s.fs with
    | (.ok (), fs) => (.ok (), ⟨fs, s.files.set i none⟩)
    | (.error err, fs) =>
      (.error err, ⟨fs, s.files.set i (if handle.stays retries then some handle else none)⟩)

def discard (i : Nat) (s : Session σ) : Session σ := { s with files := s.files.set i none }

/-- Leaving the `with` block. A deferred file is none the wiser: its `close` does nothing before
the end of the transaction. -/
def exit (exception : Bool) (i : Nat) (s : Session σ) : Except PyErr Unit × Session σ :=
  match s.files[i]?.join with
  | some (.rust _) =>
    if exception then (.ok (), s.discard i) else s.finish db decoder retries i
  | _ => (.ok (), s)

/-- `fsspec`'s `Transaction.complete` for the files in its order. -/
def complete (commit : Bool) : List Nat → Session σ → Except PyErr Unit × Session σ
  | [], s => (.ok (), s)
  | i :: rest, s =>
    if commit then
      match s.finish db decoder retries i with
      | (.error err, s) => (.error err, s)
      | (.ok (), s) => complete commit rest s
    else complete commit rest (s.discard i)

/- The answers of `other` are about the caches. -/
def exec (options : ListingsOptions) (s : Session σ) :
    SessionOp σ → Option (Except PyErr Unit) × Session σ
  | .pipe path value mode kept =>
    let (result, fs) := pipeFile db decoder options kept path value mode s.fs
    (some result, { s with fs })
  | .put source rpath mode callback kept =>
    let (result, fs) := putFileFrom db decoder options kept source rpath mode callback s.fs
    (some result, { s with fs })
  | .openFile path mode autocommit =>
    match openForWrite db path mode autocommit s.fs with
    | (.error err, fs) => (some (.error err), { s with fs })
    | (.ok handle, fs) => (some (.ok ()), ⟨fs, s.files ++ [some handle]⟩)
  | .write file data =>
    match s.files[file]?.join with
    | none => (some (.error fileIsClosed), s)
    | some _ =>
      (some (.ok ()), { s with files := s.files.modify file (Option.map (PyHandle.write data)) })
  | .finish file => ((s.finish db decoder retries file).map some id)
  | .exit file exception => ((s.exit db decoder retries exception file).map some id)
  | .discard file => (some (.ok ()), s.discard file)
  | .complete commit files => ((s.complete db decoder retries commit files).map some id)
  | .other op => (none, { s with fs := (pyExec db options s.fs op).2 })

end

end Session

/-! ### The store behind it -/

/-- A write that is not finished yet. -/
structure PendingWrite where
  path : Str
  mode : WriteMode
  data : List Byte
  deferred : Bool
  deriving Repr, DecidableEq

def PendingWrite.append (data : List Byte) (entry : PendingWrite) : PendingWrite :=
  { entry with data := entry.data ++ data }

/-- The contents of the database and the writes to come. -/
structure Store (σ : Type) where
  contents : σ
  pending : List (Option PendingWrite)

/-- What the caller is told: this, an exception, or nothing about the write. -/
inductive Told where
  | exactly (result : Except PyErr Unit)
  | refused
  | nothing

def Told.Fits (answer : Option (Except PyErr Unit)) : Told → Prop
  | .exactly result => answer = some result
  | .refused => ∃ err, answer = some (.error err)
  | .nothing => answer = none

namespace Store

section
variable (db : Database σ Stream) (decoder : Decoder Stream) (retries : Bool)

def write (path : Str) (data : List Byte) (mode : WriteMode) (s : Store σ) :
    Except PyErr Unit × Store σ :=
  let (result, contents) := atomicWrite db decoder path data mode.insertMode s.contents
  (result, { s with contents })

def finish (i : Nat) (s : Store σ) : Except PyErr Unit × Store σ :=
  match s.pending[i]?.join with
  | none => (.ok (), s)
  | some entry =>
    let (result, next) := s.write db decoder entry.path entry.data entry.mode
    let left := if !result.isOk && (entry.deferred || retries) then some entry else none
    (result, { next with pending := s.pending.set i left })

def discard (i : Nat) (s : Store σ) : Store σ := { s with pending := s.pending.set i none }

/-- The end of a `with` block finishes a write, or drops it after an exception; one that is
deferred to the end of a transaction is still to come. -/
def exit (exception : Bool) (i : Nat) (s : Store σ) : Except PyErr Unit × Store σ :=
  match s.pending[i]?.join with
  | none => (.ok (), s)
  | some entry =>
    if entry.deferred then (.ok (), s)
    else if exception then (.ok (), s.discard i)
    else s.finish db decoder retries i

/-- The writes of a transaction in order, up to the first that fails; all of them dropped, where
it is not to commit. -/
def complete (commit : Bool) : List Nat → Store σ → Except PyErr Unit × Store σ
  | [], s => (.ok (), s)
  | i :: rest, s =>
    if commit then
      match s.finish db decoder retries i with
      | (.error err, s) => (.error err, s)
      | (.ok (), s) => complete commit rest s
    else complete commit rest (s.discard i)

/-- A write of the mode `"create"` is refused, and so is a local file that cannot be read. -/
def exec (s : Store σ) : SessionOp σ → Told × Store σ
  | .pipe path value mode _ =>
    if mode = "create".toList then (.refused, s)
    else (s.write db decoder path value (.ofMode mode)).map .exactly id
  | .put source rpath mode callback _ =>
    match source.data callback with
    | .error _ => (.refused, s)
    | .ok data =>
      if mode = "create".toList then (.refused, s)
      else (s.write db decoder rpath data (.ofMode mode)).map .exactly id
  | .openFile path mode autocommit =>
    match autocommit, writeTarget db s.contents path with
    | true, .error err => (.exactly (.error (dbErrorToPyerr err)), s)
    | _, _ =>
      let entry : PendingWrite := ⟨path, mode, [], !autocommit⟩
      (.exactly (.ok ()), { s with pending := s.pending ++ [some entry] })
  | .write file data =>
    match s.pending[file]?.join with
    | none => (.refused, s)
    | some _ =>
      let pending := s.pending.modify file (Option.map (PendingWrite.append data))
      (.exactly (.ok ()), { s with pending })
  | .finish file => (s.finish db decoder retries file).map .exactly id
  | .exit file exception => (s.exit db decoder retries exception file).map .exactly id
  | .discard file => (.exactly (.ok ()), s.discard file)
  | .complete commit files => (s.complete db decoder retries commit files).map .exactly id
  | .other (.external contents) => (.nothing, { s with contents })
  | .other _ => (.nothing, s)

end

end Store

/-! ### The simulation -/

/- The mode of a file of Rust is kept as that of the insert. -/
def WriteMode.ofInsertMode : InsertMode → WriteMode
  | .Truncate => .wb
  | .Append => .ab

@[simp]
theorem insertMode_ofInsertMode (mode : InsertMode) :
    (WriteMode.ofInsertMode mode).insertMode = mode := by
  cases mode <;> rfl

@[simp]
theorem ofInsertMode_insertMode (mode : WriteMode) :
    WriteMode.ofInsertMode mode.insertMode = mode := by
  cases mode <;> rfl

def PyHandle.pending : PyHandle → PendingWrite
  | .deferred path mode buffer => ⟨path, mode, buffer, true⟩
  | .rust handle => ⟨handle.path, .ofInsertMode handle.mode, handle.buffer, false⟩

def Session.store (s : Session σ) : Store σ :=
  ⟨s.fs.contents, s.files.map (Option.map PyHandle.pending)⟩

/- No listing is asked for under a name that begins as the keys of `info` do. -/
def Ordinary (op : SessionOp σ) : Prop :=
  ∀ path refresh kept, op = .other (.request (.ls path) refresh kept) →
    ¬ "__fsspec_db_info__:".toList <+: path

/- The keys of `info` have an entry each, and not an empty listing. -/
def InfoFilled (dircache : AList fun _ : Str => DirEntry) : Prop :=
  ∀ path entry, dircache.lookup (dircacheKey (.info path)) = some entry → entry.entries ≠ []

theorem infoFilled_empty : InfoFilled ∅ := fun path entry h => by
  rw [AList.lookup_empty] at h
  cases h

section
variable (db : Database σ Stream) (decoder : Decoder Stream) (retries : Bool)
  (options : ListingsOptions)

theorem cachedRead_info {γ : Type} (contents : σ) (now : Nat) (readAt : γ) (path : Str)
    (cache : IntrospectionCache (Cached γ)) (cached : Cached γ)
    (h : (cachedRead db contents now readAt (.info path) cache).1 = .ok cached) :
    ∃ info, cached.value = .Info info := by
  unfold cachedRead at h
  cases hlookup : lookupCached now (.info path) cache with
  | mk hit next =>
    rw [hlookup] at h
    cases hit with
    | some found =>
      rw [← Except.ok.inj h]
      unfold lookupCached at hlookup
      cases hget : cache.get now (Request.info path).key with
      | mk got after =>
        rw [hget] at hlookup
        cases got with
        | none => cases hlookup
        | some entry =>
          dsimp only at hlookup
          split at hlookup
          · next hfits =>
            rw [← Option.some.inj (Prod.mk.inj hlookup).1]
            cases hvalue : entry.value with
            | Listing entries =>
              rw [hvalue] at hfits
              cases hfits
            | Info info => exact ⟨info, rfl⟩
          · cases hlookup
    | none =>
      cases hread : readDb db contents (.info path) with
      | error err =>
        rw [hread] at h
        cases h
      | ok value =>
        rw [hread] at h
        obtain ⟨info, _, hinfo⟩ := Checked.map_eq_ok_iff.mp hread
        rw [← Except.ok.inj h]
        exact ⟨info, hinfo.symm⟩

theorem infoFilled_load (request : Request) (s : PyFs σ) (hs : InfoFilled s.dircache)
    (h : ∀ path, request = .ls path → ¬ "__fsspec_db_info__:".toList <+: path) :
    InfoFilled (pyLoad db options request s).2.dircache := by
  unfold pyLoad
  cases hread : cachedRead db s.contents s.now ⟨s.now, s.calls⟩ request s.rust with
  | mk result rust =>
    cases result with
    | error err => exact hs
    | ok cached =>
      dsimp only
      split
      · intro path entry hentry
        by_cases hkey : dircacheKey (.info path) = dircacheKey request
        · rw [hkey, AList.lookup_insert] at hentry
          rw [← Option.some.inj hentry]
          cases request with
          | ls q =>
            have hbegins : "__fsspec_db_info__:".toList <+: dircacheKey.stripped q := by
              have hsame : dircacheKey (.ls q) = dircacheKey.stripped q := rfl
              rw [← hsame, ← hkey]
              exact List.prefix_append _ _
            refine absurd (hbegins.trans ?_) (h q rfl)
            unfold dircacheKey.stripped at hbegins ⊢
            split
            · next hempty =>
              rw [if_pos hempty] at hbegins
              exact absurd hbegins (by decide)
            · exact List.rdropWhile_prefix _ _
          | info q =>
            obtain ⟨info, hinfo⟩ := cachedRead_info db s.contents s.now ⟨s.now, s.calls⟩ q s.rust
              cached (by rw [hread])
            rw [hinfo]
            exact List.cons_ne_nil _ _
        · rw [AList.lookup_insert_ne hkey] at hentry
          exact hs path entry hentry
      · exact hs

theorem infoFilled_exec (op : PyOp σ) (s : PyFs σ) (hs : InfoFilled s.dircache)
    (h : Ordinary (.other op)) : InfoFilled (pyExec db options s op).2.dircache := by
  cases op with
  | request request refresh kept =>
    have hls (path : Str) (hrequest : request = .ls path) :
        ¬ "__fsspec_db_info__:".toList <+: path :=
      h path refresh kept (by rw [hrequest])
    unfold pyExec
    cases refresh with
    | true => exact infoFilled_load db options request _ infoFilled_empty hls
    | false =>
      cases hget : dircacheGet options s kept (dircacheKey request) with
      | some entry =>
        simp only [Bool.false_eq_true, if_false, hget]
        exact hs
      | none =>
        simp only [Bool.false_eq_true, if_false, hget]
        exact infoFilled_load db options request s hs hls
  | invalidateCache => exact infoFilled_empty
  | external contents => exact hs
  | advance elapsed => exact hs

/-! ### `exists` and the mode `"create"` -/

theorem pyLoad_contents (request : Request) (s : PyFs σ) :
    (pyLoad db options request s).2.contents = s.contents := by
  unfold pyLoad
  cases cachedRead db s.contents s.now ⟨s.now, s.calls⟩ request s.rust with
  | mk result rust => cases result <;> rfl

theorem pyExec_contents (op : PyOp σ) (s : PyFs σ) :
    (pyExec db options s op).2.contents =
      match op with
      | .external contents => contents
      | _ => s.contents := by
  cases op with
  | request request refresh kept =>
    unfold pyExec
    cases refresh with
    | true => exact pyLoad_contents db options request (pyInvalidate s)
    | false =>
      cases hget : dircacheGet options s kept (dircacheKey request) with
      | some entry => simp only [Bool.false_eq_true, if_false, hget]
      | none =>
        simp only [Bool.false_eq_true, if_false, hget]
        exact pyLoad_contents db options request s
  | invalidateCache | external contents | advance elapsed => rfl

theorem pyExists_contents (kept : Bool) (path : Str) (s : PyFs σ) :
    (pyExists db options kept path s).2.contents = s.contents := by
  have hcontents := pyExec_contents db options (.request (.info path) false kept) s
  unfold pyExists
  cases hexec : pyExec db options s (.request (.info path) false kept) with
  | mk answer next =>
    rw [hexec] at hcontents
    cases answer with
    | value value readAt => cases value <;> exact hcontents
    | failed err | done => exact hcontents

theorem pyExists_filled (kept : Bool) (path : Str) (s : PyFs σ) (hs : InfoFilled s.dircache) :
    InfoFilled (pyExists db options kept path s).2.dircache := by
  have hfilled := infoFilled_exec db options (.request (.info path) false kept) s hs
    fun _ _ _ h => by cases h
  unfold pyExists
  cases hexec : pyExec db options s (.request (.info path) false kept) with
  | mk answer next =>
    rw [hexec] at hfilled
    cases answer with
    | value value readAt => cases value <;> exact hfilled
    | failed err | done => exact hfilled

/- A path that does not exist is one of which the database has no metadata. -/
theorem pyExists_false (kept : Bool) (path : Str) (s : PyFs σ) (hs : InfoFilled s.dircache)
    (h : (pyExists db options kept path s).1 = false) :
    ∃ err, infoDb db s.contents path = .error err := by
  unfold pyExists pyExec at h
  simp only [Bool.false_eq_true, if_false] at h
  cases hget : dircacheGet options s kept (dircacheKey (.info path)) with
  | some entry =>
    rw [hget] at h
    have hentry : s.dircache.lookup (dircacheKey (.info path)) = some entry := by
      unfold dircacheGet at hget
      split at hget
      · exact (Option.filter_eq_some_iff.mp hget).1
      · cases hget
    cases hentries : entry.entries with
    | nil => exact absurd hentries (hs path entry hentry)
    | cons info rest =>
      simp only [answerOf, hentries, List.head?_cons, Option.map_some] at h
      cases h
  | none =>
    rw [hget] at h
    dsimp only at h
    unfold pyLoad at h
    cases hread : cachedRead db s.contents s.now ⟨s.now, s.calls⟩ (.info path) s.rust with
    | mk result rust =>
      rw [hread] at h
      cases result with
      | ok cached =>
        obtain ⟨info, hinfo⟩ := cachedRead_info db s.contents s.now ⟨s.now, s.calls⟩ path s.rust
          cached (by rw [hread])
        simp only [hinfo, entriesOf, answerOf, List.head?_cons, Option.map_some] at h
        cases h
      | error err =>
        unfold cachedRead at hread
        split at hread
        · cases hread
        · cases hdb : readDb db s.contents (.info path) with
          | error err' => exact ⟨err', Checked.map_eq_error_iff.mp hdb⟩
          | ok value =>
            rw [hdb] at hread
            cases hread

/- Without metadata there is nothing to write to. -/
theorem writeTarget_of_infoDb_error (contents : σ) (path : Str) (err : DbError)
    (h : infoDb db contents path = .error err) :
    ∃ err', writeTarget db contents path = .error err' := by
  unfold infoDb at h
  unfold writeTarget
  rcases Checked.bind_eq_error_iff.mp h with hparse | ⟨parsed, hparse, h⟩
  · exact ⟨err, Checked.bind_eq_error_iff.mpr (.inl hparse)⟩
  · apply Checked.exists_bind_eq_error hparse
    cases hkind : parsed.kind with
    | RelationData format =>
      simp only [hkind] at h ⊢
      by_cases hsql : format = .Sql
      · rw [if_pos hsql]
        exact ⟨_, rfl⟩
      · rw [if_neg hsql]
        rcases Checked.bind_eq_error_iff.mp h with hnames | ⟨names, hnames, h⟩
        · exact ⟨err, Checked.bind_eq_error_iff.mpr (.inl hnames)⟩
        · apply Checked.exists_bind_eq_error hnames
          rcases Checked.bind_eq_error_iff.mp h with hinfo | ⟨info, _, h⟩
          · exact ⟨err, Checked.bind_eq_error_iff.mpr (.inl hinfo)⟩
          · cases h
    | _ => exact ⟨_, rfl⟩

/-- The way `write` is one write of the data. -/
def IsWrite (path : Str) (data : List Byte) (mode : InsertMode)
    (write : PyFs σ → Except PyErr Unit × PyFs σ) : Prop :=
  ∀ s, (write s).1 = (atomicWrite db decoder path data mode s.contents).1 ∧
    (write s).2.contents = (atomicWrite db decoder path data mode s.contents).2 ∧
    ((write s).2.dircache = s.dircache ∨ (write s).2.dircache = ∅)

/-- The way `write` raises an exception and leaves the filesystem. -/
def IsRefusal (write : PyFs σ → Except PyErr Unit × PyFs σ) : Prop :=
  ∀ s, ∃ err, write s = (.error err, s)

theorem pyWriteFile_isWrite (path : Str) (data : List Byte) (mode : WriteMode) :
    IsWrite db decoder path data mode.insertMode (pyWriteFile db decoder path data mode) := by
  intro s
  obtain ⟨hresult, hcontents⟩ := pyWriteFile_atomic db decoder path data mode s
  refine ⟨hresult, hcontents, ?_⟩
  unfold pyWriteFile rustWriteFile
  rw [mode.parseInsertMode_str]
  dsimp only
  cases (writeBytes db decoder path data mode.insertMode ⟨s.contents, s.rust, s.now, []⟩).1 with
  | error err => exact .inl rfl
  | ok written => exact .inr rfl

theorem putWrite_isWrite (source : LocalFile) (rpath : Str) (mode : WriteMode) (callback : Bool)
    (data : List Byte) (h : source.data callback = .ok data) :
    IsWrite db decoder rpath data mode.insertMode
      (putWrite db decoder source rpath mode callback) := by
  intro s
  obtain ⟨calls, hcopy, _⟩ := copyLocalToRustFile_ok db decoder source rpath mode callback s data h
  unfold putWrite
  rw [hcopy]
  cases (atomicWrite db decoder rpath data mode.insertMode s.contents).1 with
  | error err => exact ⟨rfl, rfl, .inl rfl⟩
  | ok written => exact ⟨rfl, rfl, .inr rfl⟩

theorem putWrite_isRefusal (source : LocalFile) (rpath : Str) (mode : WriteMode)
    (callback : Bool) (err : PyErr) (h : source.data callback = .error err) :
    IsRefusal (putWrite db decoder source rpath mode callback) := by
  intro s
  obtain ⟨err', calls, hcopy⟩ :=
    copyLocalToRustFile_error db decoder source rpath mode callback s err h
  exact ⟨err', by unfold putWrite; rw [hcopy]⟩

theorem IsWrite.filled {path : Str} {data : List Byte} {mode : InsertMode}
    {write : PyFs σ → Except PyErr Unit × PyFs σ} (h : IsWrite db decoder path data mode write)
    (s : PyFs σ) (hs : InfoFilled s.dircache) : InfoFilled (write s).2.dircache := by
  rcases (h s).2.2 with hsame | hempty
  · rw [hsame]
    exact hs
  · rw [hempty]
    exact infoFilled_empty

/-- The mode `"create"` writes nothing: what exists is refused, and what does not exist has no
table to write to. -/
theorem create_refuses (kept : Bool) (path : Str)
    (write : PyFs σ → Except PyErr Unit × PyFs σ)
    (hwrite : (∃ data mode, IsWrite db decoder path data mode write) ∨ IsRefusal write)
    (s : PyFs σ) (hs : InfoFilled s.dircache) :
    let result := unlessExists db options kept path "create".toList write s
    (∃ err, result.1 = .error err) ∧ result.2.contents = s.contents ∧
      InfoFilled result.2.dircache := by
  have hcontents := pyExists_contents db options kept path s
  have hfilled := pyExists_filled db options kept path s hs
  have hfalse := pyExists_false db options kept path s hs
  unfold unlessExists
  rw [if_pos rfl]
  cases hexists : pyExists db options kept path s with
  | mk found next =>
    rw [hexists] at hcontents hfilled hfalse
    dsimp only at hcontents hfilled hfalse
    cases found with
    | true => exact ⟨⟨_, rfl⟩, hcontents, hfilled⟩
    | false =>
      dsimp only
      rcases hwrite with ⟨data, mode, hwrite⟩ | hwrite
      · obtain ⟨err, hinfo⟩ := hfalse rfl
        obtain ⟨err', htarget⟩ := writeTarget_of_infoDb_error db s.contents path err hinfo
        have hatomic := atomicWrite_refused db decoder path data mode next.contents err'
          (by rw [hcontents]; exact htarget)
        obtain ⟨hresult, hleft, _⟩ := hwrite next
        rw [hatomic] at hresult hleft
        exact ⟨⟨_, hresult⟩, hleft.trans hcontents, hwrite.filled db decoder next hfilled⟩
      · obtain ⟨err, hresult⟩ := hwrite next
        rw [hresult]
        exact ⟨⟨err, rfl⟩, hcontents, hfilled⟩

/-! ### Every step -/

theorem finish_file (handle : PyHandle) (s : PyFs σ) :
    let entry := handle.pending
    (handle.finish db decoder s).1 = (atomicWrite db decoder entry.path entry.data
        entry.mode.insertMode s.contents).1 ∧
      (handle.finish db decoder s).2.contents = (atomicWrite db decoder entry.path entry.data
        entry.mode.insertMode s.contents).2 ∧
      (InfoFilled s.dircache → InfoFilled (handle.finish db decoder s).2.dircache) := by
  cases handle with
  | deferred path mode buffer =>
    have hwrite := pyWriteFile_isWrite db decoder path buffer mode
    exact ⟨(hwrite s).1, (hwrite s).2.1, hwrite.filled db decoder s⟩
  | rust handle =>
    obtain ⟨hresult, hstate⟩ := rustCommit_atomic db decoder handle s
    simp only [PyHandle.finish, PyHandle.pending, insertMode_ofInsertMode]
    rw [hstate]
    exact ⟨hresult, rfl, id⟩

theorem session_pending (s : Session σ) (i : Nat) :
    s.store.pending[i]?.join = s.files[i]?.join.map PyHandle.pending := by
  rw [Session.store, List.getElem?_map]
  cases s.files[i]? with
  | none => rfl
  | some file => rfl

theorem session_set (s : Session σ) (i : Nat) (file : Option PyHandle) :
    s.store.pending.set i (file.map PyHandle.pending) =
      (s.files.set i file).map (Option.map PyHandle.pending) := by
  rw [List.map_set]
  rfl

theorem session_modify (s : Session σ) (i : Nat) (data : List Byte) :
    s.store.pending.modify i (Option.map (PendingWrite.append data)) =
      (s.files.modify i (Option.map (PyHandle.write data))).map
        (Option.map PyHandle.pending) := by
  have hwrite (handle : PyHandle) :
      (handle.write data).pending = handle.pending.append data := by
    cases handle <;> rfl
  apply List.ext_getElem?
  intro j
  rw [Session.store, List.getElem?_modify, List.getElem?_map, List.getElem?_map,
    List.getElem?_modify]
  rcases s.files[j]? with _ | _ | handle
  · rfl
  · by_cases hj : i = j
    · simp only [hj, if_true, Option.map_eq_map, Option.map_some, Option.map_none]
    · simp only [hj, if_false, Option.map_eq_map, Option.map_some, Option.map_none]
  · by_cases hj : i = j
    · simp only [hj, if_true, Option.map_eq_map, Option.map_some, hwrite]
    · simp only [hj, if_false, Option.map_eq_map, Option.map_some]

theorem finish_step (i : Nat) (s : Session σ) (hs : InfoFilled s.fs.dircache) :
    (s.store.finish db decoder retries i).1 = (s.finish db decoder retries i).1 ∧
      (s.store.finish db decoder retries i).2 = (s.finish db decoder retries i).2.store ∧
      InfoFilled (s.finish db decoder retries i).2.fs.dircache := by
  unfold Store.finish Session.finish
  rw [session_pending]
  cases hfile : s.files[i]?.join with
  | none => exact ⟨rfl, rfl, hs⟩
  | some handle =>
    obtain ⟨hresult, hcontents, hfilled⟩ := finish_file db decoder handle s.fs
    have hstays : (handle.pending.deferred || retries) = handle.stays retries := by
      cases handle <;> rfl
    obtain ⟨result, fs, hfinish⟩ : ∃ result fs, handle.finish db decoder s.fs = (result, fs) :=
      ⟨_, _, rfl⟩
    rw [hfinish] at hresult hcontents hfilled
    dsimp only at hresult hcontents hfilled
    simp only [Option.map_some, Store.write, Session.store, hfinish, ← hresult, ← hcontents, hstays]
    have hset := session_set s i
    cases result with
    | ok done => exact ⟨rfl, by rw [← hset none]; rfl, hfilled hs⟩
    | error err =>
      refine ⟨rfl, ?_, hfilled hs⟩
      cases hkeep : handle.stays retries with
      | true =>
        have hkept := hset (some handle)
        simp only [Except.isOk, Except.toBool, Bool.not_false, Bool.true_and, if_true]
        exact congrArg (Store.mk fs.contents) hkept
      | false => exact congrArg (Store.mk fs.contents) (hset none)

theorem discard_step (i : Nat) (s : Session σ) :
    s.store.discard i = (s.discard i).store := by
  unfold Store.discard Session.discard Session.store
  rw [List.map_set]
  rfl

theorem exit_step (exception : Bool) (i : Nat) (s : Session σ) (hs : InfoFilled s.fs.dircache) :
    (s.store.exit db decoder retries exception i).1 =
        (s.exit db decoder retries exception i).1 ∧
      (s.store.exit db decoder retries exception i).2 =
        (s.exit db decoder retries exception i).2.store ∧
      InfoFilled (s.exit db decoder retries exception i).2.fs.dircache := by
  unfold Store.exit Session.exit
  rw [session_pending]
  cases s.files[i]?.join with
  | none => exact ⟨rfl, rfl, hs⟩
  | some handle =>
    cases handle with
    | deferred path mode buffer => exact ⟨rfl, rfl, hs⟩
    | rust handle =>
      cases exception with
      | true => exact ⟨rfl, discard_step i s, hs⟩
      | false => exact finish_step db decoder retries i s hs

/- A transaction, by the files still to come. -/
theorem complete_step (commit : Bool) (files : List Nat) (s : Session σ)
    (hs : InfoFilled s.fs.dircache) :
    (s.store.complete db decoder retries commit files).1 =
        (s.complete db decoder retries commit files).1 ∧
      (s.store.complete db decoder retries commit files).2 =
        (s.complete db decoder retries commit files).2.store ∧
      InfoFilled (s.complete db decoder retries commit files).2.fs.dircache := by
  induction files generalizing s with
  | nil => exact ⟨rfl, rfl, hs⟩
  | cons i rest ih =>
    unfold Store.complete Session.complete
    cases commit with
    | false =>
      simp only [Bool.false_eq_true, if_false]
      rw [discard_step]
      exact ih (s.discard i) hs
    | true =>
      simp only [if_true]
      obtain ⟨hresult, hstate, hfilled⟩ := finish_step db decoder retries i s hs
      obtain ⟨result, next, hfinish⟩ : ∃ result next,
          s.finish db decoder retries i = (result, next) := ⟨_, _, rfl⟩
      obtain ⟨result', next', hfinish'⟩ : ∃ result' next',
          s.store.finish db decoder retries i = (result', next') := ⟨_, _, rfl⟩
      rw [hfinish, hfinish'] at hresult hstate
      rw [hfinish] at hfilled
      dsimp only at hresult hstate hfilled
      subst hresult hstate
      rw [hfinish, hfinish']
      cases result' with
      | error err => exact ⟨rfl, rfl, hfilled⟩
      | ok done => exact ih next hfilled

theorem openFile_step (path : Str) (mode : WriteMode) (autocommit : Bool) (s : Session σ) :
    let told := s.store.exec db decoder retries (.openFile path mode autocommit)
    let result := s.exec db decoder retries options (.openFile path mode autocommit)
    told.1.Fits result.1 ∧ told.2 = result.2.store ∧
      InfoFilled result.2.fs.dircache := by
  cases autocommit with
  | false =>
    simp only [Store.exec, Session.exec, openForWrite, Session.store, Bool.false_eq_true, if_false,
      List.map_append]
    exact ⟨rfl, rfl, infoFilled_empty⟩
  | true =>
    have hopen := rustOpenWrite_eq db path mode (pyInvalidate s.fs)
    have hcontents : (pyInvalidate s.fs).contents = s.fs.contents := rfl
    rw [hcontents] at hopen
    cases htarget : writeTarget db s.fs.contents path with
    | error err =>
      rw [htarget] at hopen
      simp only [Store.exec, Session.store, htarget, Session.exec, openForWrite, hopen, if_true,
        Except.map]
      exact ⟨rfl, rfl, infoFilled_empty⟩
    | ok target =>
      rw [htarget] at hopen
      simp only [Store.exec, Session.store, htarget, Session.exec, openForWrite, hopen, if_true,
        Except.map, List.map_append, List.map_singleton, Option.map_some, PyHandle.pending,
        ofInsertMode_insertMode]
      exact ⟨rfl, rfl, infoFilled_empty⟩

theorem session_step (s : Session σ) (op : SessionOp σ) (hop : Ordinary op)
    (hs : InfoFilled s.fs.dircache) :
    let told := s.store.exec db decoder retries op
    let result := s.exec db decoder retries options op
    told.1.Fits result.1 ∧ told.2 = result.2.store ∧
      InfoFilled result.2.fs.dircache := by
  cases op with
  | pipe path value mode kept =>
    have hwrite := pyWriteFile_isWrite db decoder path value (.ofMode mode)
    by_cases hcreate : mode = "create".toList
    · subst hcreate
      obtain ⟨herr, hcontents, hfilled⟩ :=
        create_refuses db decoder options kept path _ (.inl ⟨_, _, hwrite⟩) s.fs hs
      obtain ⟨err, herr⟩ := herr
      simp only [Store.exec, Session.exec, pipeFile, if_true]
      exact ⟨⟨err, congrArg some herr⟩, by rw [Session.store, ← hcontents]; rfl, hfilled⟩
    · obtain ⟨hresult, hcontents, _⟩ := hwrite s.fs
      simp only [Store.exec, Session.exec, pipeFile, unlessExists, if_neg hcreate]
      exact ⟨congrArg some hresult, congrArg (Store.mk · _) hcontents.symm,
        hwrite.filled db decoder s.fs hs⟩
  | put source rpath mode callback kept =>
    cases hdata : source.data callback with
    | error err =>
      have hrefusal := putWrite_isRefusal db decoder source rpath (.ofMode mode) callback err hdata
      simp only [Store.exec, Session.exec, hdata, putFileFrom]
      by_cases hcreate : mode = "create".toList
      · subst hcreate
        obtain ⟨herr, hcontents, hfilled⟩ :=
          create_refuses db decoder options kept rpath _ (.inr hrefusal) s.fs hs
        obtain ⟨err, herr⟩ := herr
        exact ⟨⟨err, congrArg some herr⟩, by rw [Session.store, ← hcontents]; rfl, hfilled⟩
      · obtain ⟨err, hresult⟩ := hrefusal s.fs
        simp only [unlessExists, if_neg hcreate, hresult]
        exact ⟨⟨err, rfl⟩, trivial, hs⟩
    | ok data =>
      have hwrite := putWrite_isWrite db decoder source rpath (.ofMode mode) callback data hdata
      simp only [Store.exec, Session.exec, hdata, putFileFrom]
      by_cases hcreate : mode = "create".toList
      · subst hcreate
        obtain ⟨herr, hcontents, hfilled⟩ :=
          create_refuses db decoder options kept rpath _ (.inl ⟨_, _, hwrite⟩) s.fs hs
        obtain ⟨err, herr⟩ := herr
        simp only [if_true]
        exact ⟨⟨err, congrArg some herr⟩, by rw [Session.store, ← hcontents]; rfl, hfilled⟩
      · obtain ⟨hresult, hcontents, _⟩ := hwrite s.fs
        simp only [unlessExists, if_neg hcreate]
        exact ⟨congrArg some hresult, congrArg (Store.mk · _) hcontents.symm,
          hwrite.filled db decoder s.fs hs⟩
  | openFile path mode autocommit =>
    exact openFile_step db decoder retries options path mode autocommit s
  | write file data =>
    simp only [Store.exec, Session.exec, session_pending]
    cases s.files[file]?.join with
    | none => exact ⟨⟨_, rfl⟩, rfl, hs⟩
    | some handle =>
      exact ⟨rfl, congrArg (Store.mk s.fs.contents) (session_modify s file data), hs⟩
  | finish file =>
    obtain ⟨hresult, hstate, hfilled⟩ := finish_step db decoder retries file s hs
    exact ⟨congrArg some hresult.symm, hstate, hfilled⟩
  | exit file exception =>
    obtain ⟨hresult, hstate, hfilled⟩ := exit_step db decoder retries exception file s hs
    exact ⟨congrArg some hresult.symm, hstate, hfilled⟩
  | discard file => exact ⟨rfl, discard_step file s, hs⟩
  | complete commit files =>
    obtain ⟨hresult, hstate, hfilled⟩ := complete_step db decoder retries commit files s hs
    exact ⟨congrArg some hresult.symm, hstate, hfilled⟩
  | other op =>
    have hcontents := pyExec_contents db options op s.fs
    have hfilled := infoFilled_exec db options op s.fs hs hop
    refine ⟨by cases op <;> rfl, ?_, hfilled⟩
    simp only [Session.exec, Session.store]
    rw [hcontents]
    cases op <;> rfl

end

/-- With any number of open files, listings and changes by others between them: `pipe_file`,
`put_file`, a closed file and a committed transaction each write their bytes to the database in one
step, in the order in which they are finished, and raise what that step raises. Whatever is not
finished, is discarded or cannot be read is not written, and nor is anything under the mode
`"create"`; a `with` block left by an exception discards its file, but not a deferred one, which the
end of the transaction still writes. -/
theorem session_refines_store (db : Database σ Stream) (decoder : Decoder Stream)
    (retries : Bool) (options : ListingsOptions) (contents : σ) (now : Nat)
    (ops : List (SessionOp σ)) (hops : ∀ op ∈ ops, Ordinary op) :
    let session := Mealy.run (Session.exec db decoder retries options)
      ⟨pyStart contents now, []⟩ ops
    let store := Mealy.run (Store.exec db decoder retries) ⟨contents, []⟩ ops
    List.Forall₂ (fun answer told => told.Fits answer) session.1 store.1 ∧
      store.2 = session.2.store := by
  have hrun := Mealy.run_related (P := Ordinary)
    (R := fun s t => t = s.store ∧ InfoFilled s.fs.dircache)
    (Q := fun answer told => told.Fits answer)
    (f := Session.exec db decoder retries options) (g := Store.exec db decoder retries) ?_
    ⟨pyStart contents now, []⟩ ⟨contents, []⟩ ops hops ⟨rfl, infoFilled_empty⟩
  · exact ⟨hrun.1, hrun.2.1⟩
  · intro s t op hop hR
    rw [hR.1]
    exact session_step db decoder retries options s op hop hR.2

def users : Str := "/main/users.csv".toList

/- A deferred file whose `with` block an exception leaves, a local file of three bytes that may
only be created, a file that is closed, one that an exception leaves, and the end of the
transaction. -/
def usersWritten : List (SessionOp Nat) :=
  [.openFile users .ab false, .write 0 [0x31], .exit 0 true, .other (.request usersInfo false true),
    .put ⟨.ok 3, .ok (), [.ok [0x31, 0x32], .ok [0x33]]⟩ users "create".toList true true,
    .openFile users .ab true, .write 1 [0x31], .write 1 [0x32], .exit 1 false,
    .openFile users .ab true, .write 2 [0x31], .exit 2 true, .complete true [0]]

theorem session_refines_store_users :
    (Mealy.run (Session.exec countingDb countingDecoder false (tenSeconds true))
      ⟨pyStart 0 0, []⟩ usersWritten).2.fs.contents = 3 := by
  have hops : ∀ op ∈ usersWritten, Ordinary op := by
    intro op hop path refresh kept heq
    subst heq
    simp [usersWritten, usersInfo] at hop
  have hstore := (session_refines_store countingDb countingDecoder false (tenSeconds true) 0 0
    usersWritten hops).2
  have hcontents : (Mealy.run (Store.exec countingDb countingDecoder false) ⟨0, []⟩
      usersWritten).2.contents = 3 := by decide
  rw [hstore] at hcontents
  exact hcontents

end FsspecDb.Fs
