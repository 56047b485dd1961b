import FsspecDb.Fs.PyDbFile

/-!
# Runs of the file object (database.rs, `RustDbFile`)

One method keeps the file object and the plain file of the same bytes in step, and so does every
sequence of methods.
-/

namespace FsspecDb.Fs
open Encoded

section
variable {Writer Schema Batch : Type} (codecs : Codecs Writer Schema Batch)

/-- The file object holds a file that answers as the bytes at the position, until it is closed. -/
def Mirrors (file : PyDbFile Writer Schema Batch) (bytes : BytesFile) : Prop :=
  file.mode = .Read ∧ bytes.pos < 2 ^ 64 ∧
    ((file.inner = none ∧ bytes.isOpen = false) ∨
      ∃ inner cursor, file.inner = some inner ∧ bytes.isOpen = true ∧
        AnswersAs codecs inner cursor ∧ cursor.inner = bytes.data ∧ cursor.pos = bytes.pos)

section
variable (defaults : Defaults) (sizes : Nat → ℕ+) (fuel : Nat)
  (file : PyDbFile Writer Schema Batch) (inner : FsFile Writer Schema Batch) (cursor : Cursor)
  (bytes : BytesFile)

theorem agrees_error (err : PyErr) : Agrees (some (.error err)) (.error err.cls) :=
  ⟨_, rfl, .inl rfl⟩

theorem agrees_ok (value : PyValue) : Agrees (some (.ok value)) (.ok value) :=
  ⟨_, rfl, .inl rfl⟩

theorem Mirrors.moved (hmode : file.mode = .Read) (hopen : bytes.isOpen = true)
    (next : FsFile Writer Schema Batch) (hdata : cursor.inner = bytes.data) (pos : Nat)
    (hlt : pos < 2 ^ 64) (hnext : AnswersAs codecs next { cursor with pos := pos }) :
    Mirrors codecs { file with inner := some next } { bytes with pos := pos } :=
  ⟨hmode, hlt, .inr ⟨next, _, rfl, hopen, hnext, hdata, rfl⟩⟩

theorem read_mirrors (size : Int64) (hmode : file.mode = .Read) (hinner : file.inner = some inner)
    (hopen : bytes.isOpen = true) (h : AnswersAs codecs inner cursor)
    (hdata : cursor.inner = bytes.data) (hpos : cursor.pos = bytes.pos)
    (hlt : bytes.pos < 2 ^ 64) (hfuel : bytes.data.length < fuel) :
    Agrees (file.read codecs sizes fuel size).1 (bytes.read size.toInt).1 ∧
      Mirrors codecs (file.read codecs sizes fuel size).2 (bytes.read size.toInt).2 := by
  have hrest : cursor.inner.drop cursor.pos = bytes.data.drop bytes.pos := by rw [hdata, hpos]
  have hend (data : List Byte) (hle : data.length ≤ (bytes.data.drop bytes.pos).length) :
      bytes.pos + data.length < 2 ^ 64 := by
    have hbound := cursor.inner_lt
    rw [hdata] at hbound
    rw [List.length_drop] at hle
    omega
  unfold PyDbFile.read
  rw [hinner]
  by_cases hneg : size < 0
  · obtain ⟨next, hdrain, hnext⟩ := FsFile.drain_answers codecs sizes fuel inner cursor h
      (by rw [hdata]; exact hfuel)
    have hint : size.toInt < 0 := Int64.lt_iff_toInt_lt.mp hneg
    rw [hrest, hpos] at hnext
    simp only [if_pos hneg, hdrain, hrest, BytesFile.read, if_pos hint]
    exact ⟨agrees_ok _, Mirrors.moved codecs file cursor bytes hmode hopen next hdata _
      (hend _ (Nat.le_refl _)) hnext⟩
  · obtain ⟨next, hread, hnext⟩ := FsFile.read_answers codecs size.toInt.toNat inner cursor h
    have hint : ¬ size.toInt < 0 := fun hlt => hneg (Int64.lt_iff_toInt_lt.mpr hlt)
    have hsize : size.toNatClampNeg = size.toInt.toNat := rfl
    have hmoved : (cursor.read size.toInt.toNat).2 = { cursor with
        pos := bytes.pos + ((bytes.data.drop bytes.pos).take size.toInt.toNat).length } := by
      rw [← hrest, ← hpos, ← Cursor.read_eq]
      rfl
    rw [hmoved] at hnext
    simp only [if_neg hneg, hsize, hread, Cursor.read_eq, hrest, BytesFile.read, if_neg hint]
    exact ⟨agrees_ok _, Mirrors.moved codecs file cursor bytes hmode hopen next hdata _
      (hend _ (List.length_take_le' ..)) hnext⟩

/- The `SeekFrom` of an offset and a whence has the same target. -/
theorem seekFrom_target (offset : Int64) (whence : UInt8) (hdata : cursor.inner = bytes.data)
    (hpos : cursor.pos = bytes.pos) :
    (∃ position, seekFrom offset whence = .ok position ∧
      cursorTarget cursor position = bytes.target offset.toInt whence) ∨
    ∃ err, seekFrom offset whence = .error err ∧ err.cls = .ValueError ∧
      bytes.target offset.toInt whence = none := by
  unfold seekFrom BytesFile.target BytesFile.base
  by_cases hzero : whence = 0
  · rw [if_pos hzero, if_pos hzero, Option.bind_some]
    by_cases hneg : offset < 0
    · have hint : offset.toInt < 0 := Int64.lt_iff_toInt_lt.mp hneg
      refine .inr ⟨_, if_pos hneg, rfl, ?_⟩
      rw [Cursor.checkedAddSigned, if_neg (by omega)]
    · have hint : 0 ≤ offset.toInt := by
        have hlt : ¬ offset.toInt < 0 := fun hlt => hneg (Int64.lt_iff_toInt_lt.mpr hlt)
        omega
      have hbound := offset.toInt_lt
      have hnat : offset.toUInt64.toNat = offset.toInt.toNat :=
        Int64.toNat_toUInt64_of_le (Int64.le_iff_toInt_le.mpr hint)
      refine .inl ⟨_, if_neg hneg, ?_⟩
      rw [Cursor.checkedAddSigned, if_pos (by omega), cursorTarget, hnat]
      simp only [Nat.cast_zero, Int.zero_add]
  · rw [if_neg hzero, if_neg hzero]
    by_cases hone : whence = 1
    · rw [if_pos hone, if_pos hone]
      exact .inl ⟨_, rfl, by rw [cursorTarget, hpos, Option.bind_some]⟩
    · rw [if_neg hone, if_neg hone]
      by_cases htwo : whence = 2
      · rw [if_pos htwo, if_pos htwo]
        exact .inl ⟨_, rfl, by rw [cursorTarget, hdata, Option.bind_some]⟩
      · rw [if_neg htwo, if_neg htwo]
        exact .inr ⟨_, rfl, rfl, rfl⟩

theorem seek_mirrors (offset : Int64) (whence : UInt8) (hmode : file.mode = .Read)
    (hinner : file.inner = some inner) (hopen : bytes.isOpen = true)
    (h : AnswersAs codecs inner cursor) (hdata : cursor.inner = bytes.data)
    (hpos : cursor.pos = bytes.pos) (hlt : bytes.pos < 2 ^ 64) :
    Agrees (some (file.seek codecs offset whence).1) (bytes.seek offset.toInt whence).1 ∧
      Mirrors codecs (file.seek codecs offset whence).2 (bytes.seek offset.toInt whence).2 := by
  have hrange (n : Nat) (h : bytes.target offset.toInt whence = some n) : n < 2 ^ 64 := by
    obtain ⟨base, _, hbase⟩ := Option.bind_eq_some_iff.mp h
    unfold Cursor.checkedAddSigned at hbase
    split at hbase
    · have hsum := Option.some.inj hbase
      omega
    · cases hbase
  unfold PyDbFile.seek BytesFile.seek
  rw [hinner]
  rcases seekFrom_target cursor bytes offset whence hdata hpos with
    ⟨position, hposition, htarget⟩ | ⟨err, herr, hclass, htarget⟩
  · simp only [hposition]
    rcases FsFile.seek_answers codecs position inner cursor h with
      ⟨n, next, hn, hseek, hnext⟩ | ⟨err, next, hn, hseek, hkind, hnext⟩
    · rw [← htarget, hn]
      simp only [hseek]
      exact ⟨agrees_ok _, Mirrors.moved codecs file cursor bytes hmode hopen next hdata n
        (hrange n (htarget ▸ hn)) hnext⟩
    · rw [← htarget, hn]
      simp only [hseek]
      refine ⟨⟨_, rfl, .inl ?_⟩, hmode, hlt, .inr ⟨next, cursor, rfl, hopen, hnext, hdata, hpos⟩⟩
      simp only [Except.mapError, Except.map, ioErrorToPyerr, hkind]
  · simp only [herr, htarget]
    refine ⟨⟨_, rfl, .inl ?_⟩, hmode, hlt, .inr ⟨inner, cursor, hinner, hopen, h, hdata, hpos⟩⟩
    simp only [Except.mapError, hclass]

theorem finish_mirrors (result : PyValue) (action : Except PyErr Unit) (hmode : file.mode = .Read)
    (hinner : file.inner = some inner) (hopen : bytes.isOpen = true)
    (h : AnswersAs codecs inner cursor) (hdata : cursor.inner = bytes.data)
    (hpos : cursor.pos = bytes.pos) (hlt : bytes.pos < 2 ^ 64) :
    Agrees (some ((file.finish action).1.map fun _ => result)) (bytes.finish result action).1 ∧
      Mirrors codecs (file.finish action).2 (bytes.finish result action).2 := by
  unfold PyDbFile.finish BytesFile.finish
  rw [hinner]
  cases action with
  | error err =>
    exact ⟨agrees_error err, hmode, hlt, .inr ⟨inner, cursor, hinner, hopen, h, hdata, hpos⟩⟩
  | ok _ => exact ⟨agrees_ok result, hmode, hlt, .inl ⟨rfl, rfl⟩⟩

/-- One method: the answers agree, and so do the files afterwards. -/
theorem call_mirrors (c : PyCall) (h : Mirrors codecs file bytes)
    (hfuel : bytes.data.length < fuel) :
    Agrees (file.call codecs defaults sizes fuel c).1 (bytes.call defaults c).1 ∧
      Mirrors codecs (file.call codecs defaults sizes fuel c).2 (bytes.call defaults c).2 := by
  obtain ⟨hmode, hlt, ⟨hnone, hclosed⟩ | ⟨inner, cursor, hinner, hopen, hanswers, hdata, hpos⟩⟩ :=
    h
  · have hstays : Mirrors codecs file bytes := ⟨hmode, hlt, .inl ⟨hnone, hclosed⟩⟩
    cases c with
    | _ =>
      simp only [PyDbFile.call, PyDbFile.read, PyDbFile.write, PyDbFile.seek, PyDbFile.finish,
        hnone, BytesFile.call, hclosed, Bool.false_eq_true, if_false, Option.isNone_none,
        Option.isSome_none, Bool.false_and, Option.map_none, Option.getD_none]
      exact ⟨⟨_, rfl, .inl rfl⟩, hstays⟩
  · have hstays : Mirrors codecs file bytes :=
      ⟨hmode, hlt, .inr ⟨inner, cursor, hinner, hopen, hanswers, hdata, hpos⟩⟩
    have hfinish (result : PyValue) (action : Except PyErr Unit) :=
      finish_mirrors codecs file inner cursor bytes result action hmode hinner hopen hanswers
        hdata hpos hlt
    have hresult (action : Except PyErr Unit) :
        (file.finish action).1.map (fun _ => .none) = (file.finish action).1 := by
      unfold PyDbFile.finish
      rw [hinner]
      cases action <;> rfl
    simp only [BytesFile.call, hopen, if_true]
    cases c with
    | read size =>
      exact read_mirrors codecs sizes fuel file inner cursor bytes size hmode hinner hopen hanswers
        hdata hpos hlt hfuel
    | write data =>
      refine ⟨?_, hstays⟩
      simp only [PyDbFile.call, PyDbFile.write, hinner, FsFile.write]
      exact ⟨_, rfl, .inl rfl⟩
    | seek offset whence =>
      exact seek_mirrors codecs file inner cursor bytes offset whence hmode hinner hopen hanswers
        hdata hpos hlt
    | tell =>
      have htarget : bytes.target 0 1 = some bytes.pos := by
        unfold BytesFile.target BytesFile.base
        rw [if_neg (by decide), if_pos rfl, Option.bind_some, Cursor.checkedAddSigned,
          if_pos (by omega), Int.add_zero, Int.toNat_natCast]
      have hseek : bytes.seek 0 1 = (.ok (.int bytes.pos), bytes) := by
        rw [BytesFile.seek, htarget]
      have hmirrors := seek_mirrors codecs file inner cursor bytes 0 1 hmode hinner hopen hanswers
        hdata hpos hlt
      rw [Int64.toInt_zero, hseek] at hmirrors
      exact hmirrors
    | flush =>
      refine ⟨?_, hstays⟩
      simp only [PyDbFile.call, hinner, Option.isSome_some, if_true]
      exact agrees_ok _
    | close =>
      have hmirrors := hfinish .none defaults.commit
      rw [hresult] at hmirrors
      exact hmirrors
    | discard =>
      have hmirrors := hfinish .none defaults.discard
      rw [hresult] at hmirrors
      exact hmirrors
    | size =>
      refine ⟨?_, hstays⟩
      simp only [PyDbFile.call, hinner, Option.map_some, Option.getD_some]
      rcases FsFile.size_answers codecs inner cursor hanswers with hsize | hsize
      · exact ⟨_, rfl, .inr ⟨by rw [hsize], _, rfl⟩⟩
      · rw [hsize, hdata]
        exact agrees_ok _
    | exit exception =>
      cases exception <;> exact hfinish (.bool false) _
    | closed | readable | writable | seekable =>
      refine ⟨?_, hstays⟩
      simp only [PyDbFile.call, hinner, hmode, Option.isNone_some, Option.isSome_some]
      exact agrees_ok _

theorem call_data (c : PyCall) : (bytes.call defaults c).2.data = bytes.data := by
  have hfinish (result : PyValue) (action : Except PyErr Unit) :
      (bytes.finish result action).2.data = bytes.data := by
    unfold BytesFile.finish
    cases action <;> rfl
  unfold BytesFile.call
  split
  · cases c with
    | seek offset whence =>
      simp only [BytesFile.seek]
      split <;> rfl
    | close | discard | exit => exact hfinish _ _
    | _ => rfl
  · cases c <;> rfl

end

end

/-- A path that is opened for reading and can be read to its end: whatever is called on the file
object of Python, in any order, is answered as a plain file of what is read answers it. -/
theorem pyDbFile_reads_like_bytes {σ Stream Writer Schema Batch : Type}
    (backend : Backend σ Stream Writer Schema Batch) (s : σ) (path : Str)
    (file : FsFile Writer Schema Batch) (hopen : openDb backend s path = .ok file)
    (bytes : List Byte) (hlen : bytes.length < 2 ^ 63) (sizes : Nat → ℕ+) (reads : Nat)
    (hread : Reading.readToEnd (FsFile.read backend.codecs) sizes reads 0 file =
      some (.ok bytes)) :
    ∃ enough, ∀ defaults sizes fuel, enough ≤ fuel → ∀ calls,
      List.Forall₂ Agrees
        (Mealy.run (PyDbFile.call backend.codecs defaults sizes fuel) ⟨some file, .Read⟩ calls).1
        (Mealy.run (BytesFile.call defaults) ⟨bytes, 0, true⟩ calls).1 := by
  have hanswers := answersAs_of_readToEnd backend s path file hopen bytes hlen sizes reads hread
  refine ⟨bytes.length + 1, fun defaults sizes fuel hfuel calls => ?_⟩
  have hstart : Mirrors backend.codecs ⟨some file, .Read⟩ ⟨bytes, 0, true⟩ :=
    ⟨rfl, Nat.two_pow_pos 64, .inr ⟨file, _, rfl, rfl, hanswers, rfl, rfl⟩⟩
  refine (Mealy.run_related (R := fun file plain => Mirrors backend.codecs file plain ∧
    plain.data = bytes) (P := fun _ => True) ?_ _ _ calls (fun _ _ => trivial) ⟨hstart, rfl⟩).1
  intro file plain c _ h
  obtain ⟨hagree, hnext⟩ := call_mirrors backend.codecs defaults sizes fuel file plain c h.1
    (by rw [h.2]; omega)
  exact ⟨hagree, hnext, (call_data defaults plain c).trans h.2⟩

/- Reading on behind a seek to four bytes before the end, and after closing. -/
theorem pyDbFile_reads_like_bytes_ids :
    ∃ file enough, ∀ defaults sizes fuel, enough ≤ fuel →
      List.Forall₂ Agrees
        (Mealy.run (PyDbFile.call csvCodecs defaults sizes fuel) ⟨some file, .Read⟩
          [.seek (-4) 2, .read (-1), .tell, .close, .read 1]).1
        (Mealy.run (BytesFile.call defaults) ⟨Utf8.encode "id\n1\n2\n".toList, 0, true⟩
          [.seek (-4) 2, .read (-1), .tell, .close, .read 1]).1 := by
  obtain ⟨file, hopen, hread⟩ : ∃ file, openDb idsBackend () "/main/ids.csv".toList = .ok file ∧
      Reading.readToEnd (FsFile.read csvCodecs) (fun _ => 4) 9 0 file =
        some (.ok (Utf8.encode "id\n1\n2\n".toList)) := by
    have hwhole : catFileDb idsBackend (fun _ => 4) 9 () "/main/ids.csv".toList none none =
      some (.ok (Utf8.encode "id\n1\n2\n".toList)) := by decide
    cases hopen : openDb idsBackend () "/main/ids.csv".toList with
    | error err =>
      unfold catFileDb at hwhole
      rw [hopen] at hwhole
      cases hwhole
    | ok file => exact ⟨file, rfl, catFileDb_whole idsBackend () _ file hopen _ 9 _ hwhole⟩
  obtain ⟨enough, hagree⟩ := pyDbFile_reads_like_bytes idsBackend () "/main/ids.csv".toList file
    hopen _ (by decide) (fun _ => 4) 9 hread
  exact ⟨file, enough, fun defaults sizes fuel hfuel => hagree defaults sizes fuel hfuel _⟩

end FsspecDb.Fs
