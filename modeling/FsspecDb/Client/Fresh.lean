import FsspecDb.Client.Calls

/-!
# Fresh caches

The invariant of both caches: they hold only what the database answers now. Requests keep it,
since requests with one key have one answer.
-/

namespace FsspecDb.Client
open Fs Ddl IntrospectionCache

variable {σ Stream : Type}

/-! ### Paths and keys -/

/- What a path is about, without its query. -/
def core (path : Str) : Option (Option Str × Option Str × DbPathKind) :=
  (DbPath.parse path).toOption.map fun parsed => (parsed.schema, parsed.relation, parsed.kind)

/-- Without the slashes at its end the path is about the same, and its key is not one of `info`. -/
def Settled (path : Str) : Prop :=
  core path = core (dircacheKey.stripped path) ∧ ¬ "__fsspec_db_info__:".toList <+: path

instance (path : Str) : Decidable (Settled path) := inferInstanceAs (Decidable (_ ∧ _))

def askedPath : Request → Str
  | .ls path => path
  | .info path => path

/- The path of a builder is settled, with or without a slash. -/
example : Settled "/main/users".toList ∧ Settled "/main/users/".toList ∧ Settled "/".toList ∧
    ¬ Settled "db://".toList := by decide

theorem parse_of_core {path path' : Str} (h : core path = core path') {parsed : DbPath}
    (hparse : DbPath.parse path = .ok parsed) :
    ∃ query, DbPath.parse path' = .ok { parsed with query } := by
  rw [core, core, hparse] at h
  cases hparse' : DbPath.parse path' with
  | error err =>
    rw [hparse'] at h
    cases h
  | ok parsed' =>
    rw [hparse'] at h
    obtain ⟨hschema, hrest⟩ := Prod.mk.inj (Option.some.inj h)
    obtain ⟨hrelation, hkind⟩ := Prod.mk.inj hrest
    obtain ⟨schema, relation, kind, query⟩ := parsed'
    exact ⟨query, by rw [hschema, hrelation, hkind]⟩

theorem core_of_stripped {path path' : Str} (h : Settled path) (h' : Settled path')
    (hsame : dircacheKey.stripped path = dircacheKey.stripped path') : core path = core path' :=
  h.1.trans ((congrArg core hsame).trans h'.1.symm)

section
variable (db : Database σ Stream) (contents : σ)

/- The query of a path and its spelling are for the errors only. -/
theorem lsDb_of_core (path path' : Str) (h : core path = core path') (entries : List FileInfo)
    (hls : lsDb db contents path = .ok entries) : lsDb db contents path' = .ok entries := by
  obtain ⟨parsed, hparse, hls⟩ := Checked.bind_eq_ok_iff.mp hls
  obtain ⟨query, hparse'⟩ := parse_of_core h hparse
  refine Checked.bind_eq_ok_iff.mpr ⟨_, hparse', ?_⟩
  obtain ⟨schema, relation, kind, _⟩ := parsed
  cases kind with
  | Facet facet item =>
    cases item with
    | none => exact hls
    | some item => cases hls
  | RelationData format | ViewDefinition => cases hls
  | Root | Schema | Relation => exact hls

theorem infoDb_of_core (path path' : Str) (h : core path = core path') (info : FileInfo)
    (hinfo : infoDb db contents path = .ok info) : infoDb db contents path' = .ok info := by
  obtain ⟨parsed, hparse, hinfo⟩ := Checked.bind_eq_ok_iff.mp hinfo
  obtain ⟨query, hparse'⟩ := parse_of_core h hparse
  refine Checked.bind_eq_ok_iff.mpr ⟨_, hparse', ?_⟩
  obtain ⟨schema, relation, kind, _⟩ := parsed
  exact hinfo

end

/- A name in front of the path is in front of its key. -/
theorem prefix_of_stripped (path : Str)
    (h : "__fsspec_db_info__:".toList <+: dircacheKey.stripped path) :
    "__fsspec_db_info__:".toList <+: path := by
  unfold dircacheKey.stripped at h
  split at h
  · exact absurd h (by decide)
  · exact h.trans (List.rdropWhile_prefix _ _)

theorem infoKey_ne (path path' : Str) (hpath : Settled path) :
    dircacheKey (.ls path) ≠ dircacheKey (.info path') := fun h =>
  hpath.2 (prefix_of_stripped path ⟨_, h.symm⟩)

/-- Requests with one key have one answer. -/
theorem readDb_of_key (db : Database σ Stream) (contents : σ) (request request' : Request)
    (hrequest : Settled (askedPath request)) (hrequest' : Settled (askedPath request'))
    (hkey : dircacheKey request = dircacheKey request') (value : CachedIntrospection)
    (h : readDb db contents request = .ok value) : readDb db contents request' = .ok value := by
  cases request with
  | ls path =>
    cases request' with
    | ls path' =>
      have hsame : dircacheKey.stripped path = dircacheKey.stripped path' := hkey
      obtain ⟨entries, hls, rfl⟩ := Checked.map_eq_ok_iff.mp h
      have hcore := core_of_stripped hrequest hrequest' hsame
      exact Checked.map_eq_ok_iff.mpr
        ⟨entries, lsDb_of_core db contents path path' hcore entries hls, rfl⟩
    | info path' => exact absurd hkey (infoKey_ne path path' hrequest)
  | info path =>
    cases request' with
    | ls path' => exact absurd hkey.symm (infoKey_ne path' path hrequest')
    | info path' =>
      have hsame : dircacheKey.stripped path = dircacheKey.stripped path' :=
        List.append_cancel_left hkey
      obtain ⟨info, hinfo, rfl⟩ := Checked.map_eq_ok_iff.mp h
      have hcore := core_of_stripped hrequest hrequest' hsame
      exact Checked.map_eq_ok_iff.mpr
        ⟨info, infoDb_of_core db contents path path' hcore info hinfo, rfl⟩

/-! ### The invariant -/

/-- What either cache holds is what the database answers now. -/
structure Fresh (db : Database σ Stream) (s : PyFs σ) : Prop where
  rust : ∀ request entry, s.rust.entries.lookup request.key = some entry →
    readDb db s.contents request = .ok entry.value.value
  dircache : ∀ request entry, Settled (askedPath request) →
    s.dircache.lookup (dircacheKey request) = some entry →
    ∃ value, readDb db s.contents request = .ok value ∧
      answerOf request entry.entries = some value

theorem fresh_empty (db : Database σ Stream) (s : PyFs σ)
    (hrust : ∀ k, s.rust.entries.lookup k = none) (hdircache : s.dircache = ∅) : Fresh db s where
  rust request entry h := by
    rw [hrust] at h
    cases h
  dircache request entry _ h := by
    rw [hdircache, AList.lookup_empty] at h
    cases h

theorem fresh_invalidate (db : Database σ Stream) (s : PyFs σ) : Fresh db (pyInvalidate s) :=
  fresh_empty db _ (clear_lookup s.rust) rfl

/- Neither the time nor the number of calls matters. -/
theorem Fresh.same {db : Database σ Stream} {s t : PyFs σ} (h : Fresh db s)
    (hcontents : t.contents = s.contents) (hrust : t.rust = s.rust)
    (hdircache : t.dircache = s.dircache) : Fresh db t where
  rust := by
    rw [hcontents, hrust]
    exact h.rust
  dircache := by
    rw [hcontents, hdircache]
    exact h.dircache

theorem answerOf_entriesOf (db : Database σ Stream) (contents : σ) (request : Request)
    (value : CachedIntrospection) (h : readDb db contents request = .ok value) :
    answerOf request (entriesOf value) = some value := by
  cases request with
  | ls path =>
    obtain ⟨entries, _, rfl⟩ := Checked.map_eq_ok_iff.mp h
    rfl
  | info path =>
    obtain ⟨info, _, rfl⟩ := Checked.map_eq_ok_iff.mp h
    rfl

section
variable (db : Database σ Stream) (options : ListingsOptions)

/- Behind the Rust cache a read is a read of the database. -/
theorem cachedRead_fresh (request : Request) (s : PyFs σ) (hs : Fresh db s) (readAt : ReadAt) :
    ((cachedRead db s.contents s.now readAt request s.rust).1.map (·.value)) =
      readDb db s.contents request := by
  cases hread : (cachedRead db s.contents s.now readAt request s.rust).1 with
  | ok cached =>
    rcases cachedRead_value db s.contents s.now readAt request s.rust cached hread with
      ⟨entry, hentry, rfl, _⟩ | ⟨hok, _⟩
    · exact (hs.rust request entry hentry).symm
    · exact hok.symm
  | error err =>
    unfold cachedRead at hread
    split at hread
    · cases hread
    · split at hread
      · next herr =>
        rw [herr, ← Except.error.inj hread]
        rfl
      · cases hread

theorem pyLoad_fresh (request : Request) (hrequest : Settled (askedPath request)) (s : PyFs σ)
    (hs : Fresh db s) :
    ClientAnswer.ofPyAnswer (pyLoad db options request s).1 =
        .ofRead (readDb db s.contents request) ∧
      (pyLoad db options request s).2.contents = s.contents ∧
      Fresh db (pyLoad db options request s).2 := by
  have hvalue := cachedRead_fresh db request s hs ⟨s.now, s.calls⟩
  have hrust (k : Request) (entry : CacheEntry (Cached ReadAt))
      (h : (cachedRead db s.contents s.now ⟨s.now, s.calls⟩ request s.rust).2.entries.lookup k.key =
        some entry) : readDb db s.contents k = .ok entry.value.value := by
    rcases cachedRead_lookup db _ _ _ request s.rust k.key entry h with
      hold | ⟨hkey, value, rfl, hread⟩
    · exact hs.rust k entry hold
    · rw [Request.key_injective k request hkey]
      exact hread
  refine ⟨?_, pyLoad_contents db options request s, ?_⟩
  · unfold pyLoad
    cases hread : cachedRead db s.contents s.now ⟨s.now, s.calls⟩ request s.rust with
    | mk result rust =>
      rw [hread] at hvalue
      cases result with
      | error err =>
        rw [← hvalue]
        rfl
      | ok cached =>
        simp only [answerOf_entriesOf db s.contents request cached.value hvalue.symm, ← hvalue]
        rfl
  · unfold pyLoad
    cases hread : cachedRead db s.contents s.now ⟨s.now, s.calls⟩ request s.rust with
    | mk result rust =>
      rw [hread] at hvalue hrust
      cases result with
      | error err => exact ⟨hrust, hs.dircache⟩
      | ok cached =>
        refine ⟨hrust, fun request' entry hrequest' h => ?_⟩
        dsimp only at h ⊢
        split at h
        · by_cases hkey : dircacheKey request' = dircacheKey request
          · rw [hkey, AList.lookup_insert] at h
            rw [← Option.some.inj h]
            have hread' := readDb_of_key db s.contents request request' hrequest hrequest' hkey.symm
              cached.value hvalue.symm
            exact ⟨cached.value, hread',
              answerOf_entriesOf db s.contents request' cached.value hread'⟩
          · rw [AList.lookup_insert_ne hkey] at h
            exact hs.dircache request' entry hrequest' h
        · exact hs.dircache request' entry hrequest' h

theorem request_fresh (request : Request) (hrequest : Settled (askedPath request))
    (refresh kept : Bool) (s : PyFs σ) (hs : Fresh db s) :
    ClientAnswer.ofPyAnswer (pyExec db options s (.request request refresh kept)).1 =
        .ofRead (readDb db s.contents request) ∧
      (pyExec db options s (.request request refresh kept)).2.contents = s.contents ∧
      Fresh db (pyExec db options s (.request request refresh kept)).2 := by
  unfold pyExec
  cases refresh with
  | true => exact pyLoad_fresh db options request hrequest _ (fresh_invalidate db s)
  | false =>
    cases hget : dircacheGet options s kept (dircacheKey request) with
    | none =>
      simp only [Bool.false_eq_true, if_false, hget]
      exact pyLoad_fresh db options request hrequest s hs
    | some entry =>
      simp only [Bool.false_eq_true, if_false, hget]
      have hentry : s.dircache.lookup (dircacheKey request) = some entry := by
        unfold dircacheGet at hget
        split at hget
        · exact (Option.filter_eq_some_iff.mp hget).1
        · cases hget
      obtain ⟨value, hread, hanswer⟩ := hs.dircache request entry hrequest hentry
      rw [hanswer, hread]
      exact ⟨rfl, trivial, hs.same rfl rfl rfl⟩

theorem exists_fresh (kept : Bool) (path : Str) (hpath : Settled path) (s : PyFs σ)
    (hs : Fresh db s) :
    (pyExists db options kept path s).1 = (infoDb db s.contents path).isOk ∧
      (pyExists db options kept path s).2.contents = s.contents ∧
      Fresh db (pyExists db options kept path s).2 := by
  obtain ⟨hanswer, hcontents, hfresh⟩ :=
    request_fresh db options (.info path) hpath false kept s hs
  unfold pyExists
  cases hexec : pyExec db options s (.request (.info path) false kept) with
  | mk answer next =>
    rw [hexec] at hanswer hcontents hfresh
    rw [readDb] at hanswer
    cases hinfo : infoDb db s.contents path with
    | ok info =>
      rw [hinfo] at hanswer
      cases answer with
      | value value readAt =>
        cases value with
        | none => cases hanswer
        | some value => exact ⟨rfl, hcontents, hfresh⟩
      | failed err | done => cases hanswer
    | error err =>
      rw [hinfo] at hanswer
      cases answer with
      | value value readAt => cases value <;> cases hanswer
      | failed err | done => exact ⟨rfl, hcontents, hfresh⟩

end

end FsspecDb.Client
