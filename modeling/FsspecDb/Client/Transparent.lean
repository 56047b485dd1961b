import FsspecDb.Client.Fresh

/-!
# One client does not notice the caches

As long as the client itself makes every change, each of its calls clears the caches where it has
changed something, and the caches stay fresh.
-/

namespace FsspecDb.Client
open Fs Ddl IntrospectionCache

variable {σ Stream : Type}

/-! ### Writes -/

/-- The write does what the other does to the contents, and leaves the caches fresh. -/
def Writes (db : Database σ Stream) (write : PyFs σ → Except PyErr Unit × PyFs σ)
    (plain : σ → Except PyErr Unit × σ) : Prop :=
  ∀ s, Fresh db s → (write s).1 = (plain s.contents).1 ∧
    (write s).2.contents = (plain s.contents).2 ∧ Fresh db (write s).2

theorem unlessExists_writes (db : Database σ Stream) (options : ListingsOptions) (kept : Bool)
    (path mode : Str)
    (hpath : mode = "create".toList → Settled path)
    (write : PyFs σ → Except PyErr Unit × PyFs σ) (plain : σ → Except PyErr Unit × σ)
    (h : Writes db write plain) :
    Writes db (unlessExists db options kept path mode write)
      (plainUnlessExists db path mode plain) := by
  intro s hs
  unfold unlessExists plainUnlessExists
  by_cases hmode : mode = "create".toList
  · obtain ⟨hexists, hcontents, hfresh⟩ :=
      exists_fresh db options kept path (hpath hmode) s hs
    rw [if_pos hmode]
    cases hfound : pyExists db options kept path s with
    | mk found next =>
      rw [hfound] at hexists hcontents hfresh
      dsimp only at hexists
      cases found with
      | true =>
        rw [if_pos ⟨hmode, hexists.symm⟩]
        exact ⟨rfl, hcontents, hfresh⟩
      | false =>
        rw [if_neg fun hboth => by rw [← hexists] at hboth; exact absurd hboth.2 (by decide),
          ← hcontents]
        exact h next hfresh
  · rw [if_neg hmode, if_neg fun hboth => hmode hboth.1]
    exact h s hs

/-- An insert that fails leaves the contents as they were. -/
def InsertsWhole (db : Database σ Stream) : Prop :=
  ∀ contents schema relation reader mode err,
    (db.insert contents schema relation reader mode).1 = .error err →
      (db.insert contents schema relation reader mode).2 = contents

section
variable (db : Database σ Stream) (decoder : Decoder Stream) (hinsert : InsertsWhole db)
include hinsert

theorem atomicWrite_error (path : Str) (data : List Byte) (mode : InsertMode) (contents : σ)
    (err : PyErr) (h : (atomicWrite db decoder path data mode contents).1 = .error err) :
    (atomicWrite db decoder path data mode contents).2 = contents := by
  unfold atomicWrite writeBytesToDatabase at h ⊢
  cases htarget : writeTarget db contents path with
  | error err => rfl
  | ok target =>
    obtain ⟨schema, relation, format⟩ := target
    rw [htarget] at h
    dsimp only at h ⊢
    cases hdecode : decodeStream db decoder contents schema relation format data with
    | error err => rfl
    | ok reader =>
      rw [hdecode] at h
      obtain ⟨err', hresult⟩ : ∃ err', (db.insert contents schema relation reader mode).1 =
          .error err' := by
        cases hresult : (db.insert contents schema relation reader mode).1 with
        | error err' => exact ⟨err', rfl⟩
        | ok written =>
          dsimp only at h
          rw [hresult] at h
          cases h
      exact hinsert contents schema relation reader mode err' hresult

theorem pyWriteFile_writes (path : Str) (data : List Byte) (mode : WriteMode) :
    Writes db (pyWriteFile db decoder path data mode)
      (atomicWrite db decoder path data mode.insertMode) := by
  intro s hs
  obtain ⟨hresult, hcontents⟩ := pyWriteFile_atomic db decoder path data mode s
  refine ⟨hresult, hcontents, ?_⟩
  cases hanswer : (atomicWrite db decoder path data mode.insertMode s.contents).1 with
  | error err =>
    have hkept := atomicWrite_error db decoder hinsert path data mode.insertMode s.contents err
      hanswer
    rw [hkept] at hcontents
    rw [hanswer] at hresult
    refine hs.same hcontents ?_ ?_
    all_goals
      clear hcontents hkept
      unfold pyWriteFile rustWriteFile writeBytes at hresult ⊢
      rw [mode.parseInsertMode_str] at hresult ⊢
      dsimp only at hresult ⊢
      cases hwrite : writeBytesToDatabase db decoder s.contents path data mode.insertMode with
      | mk result contents =>
        rw [hwrite] at hresult
        cases result with
        | error err => rfl
        | ok written => cases hresult
  | ok _ =>
    rw [hanswer] at hresult
    unfold pyWriteFile at hresult ⊢
    cases hwrite : rustWriteFile db decoder path data mode.str s with
    | mk result next =>
      rw [hwrite] at hresult
      cases result with
      | error err => cases hresult
      | ok written => exact fresh_invalidate db next

omit hinsert in
/- A copy does to the contents what it does without the caches, and leaves these alone. -/
theorem copyLocalToRustFile_plain (source : LocalFile) (rpath : Str) (mode : WriteMode)
    (callback : Bool) (s : PyFs σ) :
    (copyLocalToRustFile db decoder source rpath mode callback s).1 =
        (plainPut db decoder source rpath mode callback s.contents).1 ∧
      (copyLocalToRustFile db decoder source rpath mode callback s).2.2 =
        { s with contents := (plainPut db decoder source rpath mode callback s.contents).2 } := by
  unfold plainPut copyLocalToRustFile
  cases (if callback then source.size.map some else .ok none) with
  | error err => exact ⟨rfl, rfl⟩
  | ok size =>
    cases source.opened with
    | error err => exact ⟨rfl, rfl⟩
    | ok _ =>
      have hopen : rustOpenWrite db rpath mode (pyStart s.contents 0) =
          rustOpenWrite db rpath mode s := rfl
      dsimp only
      rw [hopen]
      cases rustOpenWrite db rpath mode s with
      | error err => exact ⟨rfl, rfl⟩
      | ok target =>
        dsimp only
        cases copyBlocks source.reads target with
        | mk err rest =>
          cases err with
          | some err => exact ⟨rfl, rfl⟩
          | none =>
            obtain ⟨hresult, hnext⟩ := rustCommit_atomic db decoder rest.1 s
            obtain ⟨hresult', hnext'⟩ :=
              rustCommit_atomic db decoder rest.1 (pyStart s.contents 0)
            exact ⟨hresult.trans hresult'.symm, by rw [hnext, hnext']; rfl⟩

theorem plainPut_error (source : LocalFile) (rpath : Str) (mode : WriteMode) (callback : Bool)
    (contents : σ) (err : PyErr)
    (h : (plainPut db decoder source rpath mode callback contents).1 = .error err) :
    (plainPut db decoder source rpath mode callback contents).2 = contents := by
  unfold plainPut copyLocalToRustFile at h ⊢
  cases hsize : (if callback then source.size.map some else .ok none) with
  | error err => rfl
  | ok size =>
    rw [hsize] at h
    cases hopened : source.opened with
    | error err => rfl
    | ok _ =>
      rw [hopened] at h
      dsimp only at h ⊢
      cases hopen : rustOpenWrite db rpath mode (pyStart contents 0) with
      | error err => rfl
      | ok target =>
        rw [hopen] at h
        dsimp only at h ⊢
        cases hcopy : copyBlocks source.reads target with
        | mk err' rest =>
          rw [hcopy] at h
          cases err' with
          | some err' => rfl
          | none =>
            obtain ⟨hresult, hnext⟩ := rustCommit_atomic db decoder rest.1 (pyStart contents 0)
            dsimp only at h ⊢
            rw [hnext]
            exact atomicWrite_error db decoder hinsert _ _ _ contents err (hresult.symm.trans h)

theorem putWrite_writes (source : LocalFile) (rpath : Str) (mode : WriteMode) (callback : Bool) :
    Writes db (putWrite db decoder source rpath mode callback)
      (plainPut db decoder source rpath mode callback) := by
  intro s hs
  obtain ⟨hresult, hnext⟩ := copyLocalToRustFile_plain db decoder source rpath mode callback s
  unfold putWrite
  cases hcopy : copyLocalToRustFile db decoder source rpath mode callback s with
  | mk result rest =>
    rw [hcopy] at hresult hnext
    dsimp only at hresult hnext
    cases result with
    | error err =>
      have hkept := plainPut_error db decoder hinsert source rpath mode callback s.contents err
        hresult.symm
      rw [hkept] at hnext
      exact ⟨hresult, by rw [hkept, hnext], hnext ▸ hs⟩
    | ok _ =>
      have hcontents : rest.2.contents =
          (plainPut db decoder source rpath mode callback s.contents).2 := by rw [hnext]
      exact ⟨hresult, hcontents, fresh_invalidate db rest.2⟩

omit hinsert in
theorem foldl_write_rust (pieces : List (List Byte)) (handle : WriteHandle) :
    pieces.foldl (fun handle piece => handle.write piece) (.rust handle) =
      PyHandle.rust { handle with buffer := handle.buffer ++ pieces.flatten } := by
  induction pieces generalizing handle with
  | nil => rw [List.flatten_nil, List.append_nil]; rfl
  | cons piece pieces ih =>
    rw [List.foldl_cons, PyHandle.write, ih, List.flatten_cons, List.append_assoc]

omit hinsert in
theorem foldl_write_deferred (pieces : List (List Byte)) (path : Str) (mode : WriteMode)
    (buffer : List Byte) :
    pieces.foldl (fun handle piece => handle.write piece) (.deferred path mode buffer) =
      PyHandle.deferred path mode (buffer ++ pieces.flatten) := by
  induction pieces generalizing buffer with
  | nil => rw [List.flatten_nil, List.append_nil]; rfl
  | cons piece pieces ih =>
    rw [List.foldl_cons, PyHandle.write, ih, List.flatten_cons, List.append_assoc]

/- The caches are cleared when the file is opened, and nothing is asked until it is finished. -/
theorem writeThrough_writes (path : Str) (mode : WriteMode) (autocommit : Bool)
    (pieces : List (List Byte)) :
    Writes db (writeThrough db decoder path mode autocommit pieces)
      (atomicWrite db decoder path pieces.flatten mode.insertMode) := by
  intro s _
  unfold writeThrough openForWrite
  cases autocommit with
  | false =>
    dsimp only
    rw [if_neg Bool.false_ne_true]
    dsimp only
    rw [foldl_write_deferred, List.nil_append]
    exact pyWriteFile_writes db decoder hinsert path pieces.flatten mode (pyInvalidate s)
      (fresh_invalidate db s)
  | true =>
    dsimp only
    rw [if_pos rfl, rustOpenWrite_eq]
    cases htarget : writeTarget db s.contents path with
    | error err =>
      have htarget' : writeTarget db (pyInvalidate s).contents path = .error err := htarget
      rw [htarget', atomicWrite_refused db decoder path pieces.flatten mode.insertMode s.contents
        err htarget]
      exact ⟨rfl, rfl, fresh_invalidate db s⟩
    | ok target =>
      have htarget' : writeTarget db (pyInvalidate s).contents path = .ok target := htarget
      rw [htarget']
      dsimp only [Except.map]
      rw [foldl_write_rust, List.nil_append]
      obtain ⟨hresult, hnext⟩ := rustCommit_atomic db decoder
        ⟨path, mode.insertMode, pieces.flatten, false⟩ (pyInvalidate s)
      refine ⟨hresult, congrArg PyFs.contents hnext, ?_⟩
      rw [PyHandle.finish, hnext]
      exact fresh_empty db _ (clear_lookup s.rust) rfl

end

/-! ### The simulation -/

/-- The paths that are looked up in the caches are settled. -/
def Usual : ClientOp → Prop
  | .request request _ _ => Settled (askedPath request)
  | .pipe path _ mode _ => mode = "create".toList → Settled path
  | .put _ rpath mode _ _ => mode = "create".toList → Settled rpath
  | .rmFile path _ => Settled path
  | _ => True

/- A statement that fails leaves the contents as they were. -/
def QueriesWhole (query : σ → Str → Except PyErr Unit × σ) : Prop :=
  ∀ contents sql err, (query contents sql).1 = .error err → (query contents sql).2 = contents

/- The filesystem with its caches over these contents. -/
def Holds (db : Database σ Stream) (s : PyFs σ) (contents : σ) : Prop :=
  s.contents = contents ∧ Fresh db s

section
variable (db : Database σ Stream) (decoder : Decoder Stream) (fs : DdlFs)
  (query : σ → Str → Except PyErr Unit × σ) (hinsert : InsertsWhole db)
  (hquery : QueriesWhole query)

omit hinsert in
include hquery in
theorem runSql_plain (sql : Except PyError Str) (s : PyFs σ) (hs : Fresh db s) :
    (runSql query sql s).1 = (plainSql query sql s.contents).1 ∧
      Holds db (runSql query sql s).2 (plainSql query sql s.contents).2 := by
  unfold runSql plainSql
  cases sql with
  | error err => exact ⟨rfl, rfl, hs⟩
  | ok sql =>
    have hkept := hquery s.contents sql
    dsimp only
    cases hresult : query s.contents sql with
    | mk result contents =>
      rw [hresult] at hkept
      cases result with
      | error err =>
        obtain rfl := hkept err rfl
        exact ⟨rfl, rfl, hs⟩
      | ok _ => exact ⟨rfl, rfl, fresh_invalidate db _⟩

theorem write_plain (write : PyFs σ → Except PyErr Unit × PyFs σ)
    (plain : σ → Except PyErr Unit × σ) (h : Writes db write plain) (s : PyFs σ)
    (hs : Fresh db s) :
    ((write s).map ClientAnswer.ofWrite id).1 =
        ((plain s.contents).map ClientAnswer.ofWrite id).1 ∧
      Holds db ((write s).map ClientAnswer.ofWrite id).2
        ((plain s.contents).map ClientAnswer.ofWrite id).2 := by
  obtain ⟨hresult, hcontents, hfresh⟩ := h s hs
  exact ⟨congrArg ClientAnswer.ofWrite hresult, hcontents, hfresh⟩

include hquery in
/- The kind in a DROP is the one that the database gives now. -/
theorem rmFile_plain (options : ListingsOptions) (path : Str) (hpath : Settled path)
    (kept : Bool) (s : PyFs σ) (hs : Fresh db s) :
    (clientExec db decoder fs query options s (.rmFile path kept)).1 =
        (plainExec db decoder fs query s.contents (.rmFile path kept)).1 ∧
      Holds db (clientExec db decoder fs query options s (.rmFile path kept)).2
        (plainExec db decoder fs query s.contents (.rmFile path kept)).2 := by
  unfold clientExec plainExec
  dsimp only
  by_cases hasks : asksInfo fs path = true
  · obtain ⟨hanswer, hcontents, hfresh⟩ :=
      request_fresh db options (.info path) hpath false kept s hs
    rw [if_pos hasks, if_pos hasks]
    cases hexec : pyExec db options s (.request (.info path) false kept) with
    | mk answer next =>
      rw [hexec] at hanswer hcontents hfresh
      rw [readDb] at hanswer
      cases hinfo : infoDb db s.contents path with
      | ok info =>
        rw [hinfo] at hanswer
        cases answer with
        | value value readAt =>
          cases value with
          | none => cases hanswer
          | some value =>
            obtain rfl := ClientAnswer.read.inj hanswer
            have hsql :=
              runSql_plain db query hquery (fs.rmFileOf (.ok (kindOf info)) path) next hfresh
            rw [hcontents] at hsql
            exact hsql
        | failed err | done => cases hanswer
      | error err =>
        rw [hinfo] at hanswer
        cases answer with
        | value value readAt => cases value <;> cases hanswer
        | done => cases hanswer
        | failed err' => exact ⟨hanswer, hcontents, hfresh⟩
  · rw [if_neg hasks, if_neg hasks]
    exact runSql_plain db query hquery (fs.rmFileOf (.ok none) path) s hs

include hinsert hquery

theorem client_step (options : ListingsOptions) (s : PyFs σ) (contents : σ) (op : ClientOp)
    (hop : Usual op) (h : Holds db s contents) :
    (clientExec db decoder fs query options s op).1 =
        (plainExec db decoder fs query contents op).1 ∧
      Holds db (clientExec db decoder fs query options s op).2
        (plainExec db decoder fs query contents op).2 := by
  obtain ⟨rfl, hs⟩ := h
  cases op with
  | request request refresh kept => exact request_fresh db options request hop refresh kept s hs
  | pipe path value mode kept =>
    exact write_plain db _ _ (unlessExists_writes db options kept path mode hop _ _
      (pyWriteFile_writes db decoder hinsert path value (.ofMode mode))) s hs
  | put source rpath mode callback kept =>
    exact write_plain db _ _ (unlessExists_writes db options kept rpath mode hop _ _
      (putWrite_writes db decoder hinsert source rpath (.ofMode mode) callback)) s hs
  | writeThrough path mode autocommit pieces =>
    exact write_plain db _ _
      (writeThrough_writes db decoder hinsert path mode autocommit pieces) s hs
  | mkdir path sql arrowSchema => exact runSql_plain db query hquery _ s hs
  | rmFile path kept => exact rmFile_plain db decoder fs query hquery options path hop kept s hs
  | mv path1 path2 => exact runSql_plain db query hquery _ s hs
  | invalidateCache => exact ⟨rfl, rfl, fresh_invalidate db s⟩
  | advance elapsed => exact ⟨rfl, rfl, hs.same rfl rfl rfl⟩

end

def allowed : DdlFs where
  allowDdl := true
  db := some "sqlite".toList
  protocol := "db".toList
  info _ := .ok none
  info_word _ _ h := by cases h

/- The row count before and after a row is appended, and after the table is emptied. -/
def countedCalls : List ClientOp :=
  [.request (.info "/main/users".toList) false true,
    .pipe "/main/users.csv".toList [0x31] "append".toList true,
    .request (.info "/main/users/".toList) false true, .rmFile "/main/users.csv".toList true,
    .request (.info "/main/users".toList) false true]

end FsspecDb.Client
