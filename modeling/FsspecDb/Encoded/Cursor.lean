import FsspecDb.Encoded.Fill

/-!
# The file refines a cursor over the complete encoding

`Cursor` is the in-memory cursor of the standard library. The file represents a
cursor if what it emitted and what encoding the rest of the batches will emit is
the cursor's data; every call keeps this and gives the same answer.
-/

namespace FsspecDb.Encoded

/-- `io::Cursor<Vec<u8>>`; a `Vec` holds at most `isize::MAX` bytes. -/
structure Cursor where
  inner : List Byte
  pos : Nat
  inner_lt : inner.length < 2 ^ 63

namespace Cursor

def new (inner : List Byte) (h : inner.length < 2 ^ 63) : Cursor := ⟨inner, 0, h⟩

/-- `Read::read` of the bytes from the position on, which may lie past the end. -/
def read (n : Nat) (cursor : Cursor) : List Byte × Cursor :=
  let data := (cursor.inner.drop (min cursor.pos cursor.inner.length)).take n
  (data, { cursor with pos := cursor.pos + data.length })

def checkedAddSigned (base : Nat) (offset : Int) : Option Nat :=
  if 0 ≤ (base : Int) + offset ∧ (base : Int) + offset < 2 ^ 64 then
    some ((base : Int) + offset).toNat
  else none

def invalidSeek : IoError :=
  ⟨.InvalidInput, "invalid seek to a negative or overflowing position".toList⟩

def seek (pos : SeekFrom) (cursor : Cursor) : Except IoError Nat × Cursor :=
  let move (base : Nat) (offset : Int) : Except IoError Nat × Cursor :=
    match checkedAddSigned base offset with
    | some n => (.ok n, { cursor with pos := n })
    | none => (.error invalidSeek, cursor)
  match pos with
  | .Start n => (.ok n.toNat, { cursor with pos := n.toNat })
  | .End offset => move cursor.inner.length offset.toInt
  | .Current offset => move cursor.pos offset.toInt

def call (cursor : Cursor) : Call → Answer × Cursor
  | .read n => (.bytes (cursor.read n).1, (cursor.read n).2)
  | .seek pos =>
    match cursor.seek pos with
    | (.ok position, next) => (.position position, next)
    | (.error err, next) => (.failed err.kind, next)

end Cursor

variable {Writer Schema Batch : Type}

/-- What a writer still emits for the batches and at the end. -/
def encodeRest (codecs : Codecs Writer Schema Batch) :
    Writer → List Batch → Except DbError (List Byte)
  | writer, [] =>
    match codecs.finish writer with
    | (bytes, none) => .ok bytes
    | (_, some err) => .error err
  | writer, batch :: rest =>
    match codecs.writeBatch writer batch with
    | (bytes, writer, none) => (encodeRest codecs writer rest).map fun tail => bytes ++ tail
    | (_, _, some err) => .error err

def encode (codecs : Codecs Writer Schema Batch) (format : DataFormat) (schema : Schema)
    (batches : List Batch) : Except DbError (List Byte) :=
  match formatEncoder codecs format schema with
  | .error err => .error err
  | .ok (writer, header) => (encodeRest codecs writer batches).map fun tail => header ++ tail

/-- What was emitted and what is still to come make up the whole encoding. -/
def Fills (codecs : Codecs Writer Schema Batch) (bytes : List Byte)
    (file : EncodedDbFile Writer Schema Batch) : Prop :=
  file.sink = [] ∧ file.eof = file.reader.ended ∧
    if file.eof then file.emitted = bytes
    else ∃ writer batches tail, file.writer = some writer ∧
      file.reader.items = batches.map .ok ∧ encodeRest codecs writer batches = .ok tail ∧
      bytes = file.emitted ++ tail

def Represents (codecs : Codecs Writer Schema Batch) (file : EncodedDbFile Writer Schema Batch)
    (cursor : Cursor) : Prop :=
  Fills codecs cursor.inner file ∧ file.position = cursor.pos ∧ cursor.pos < 2 ^ 64

open EncodedDbFile

/- A pass over a file that fills without error does not fail either. -/
theorem fillStep_fills (codecs : Codecs Writer Schema Batch) (bytes : List Byte)
    (file : EncodedDbFile Writer Schema Batch) (h : Fills codecs bytes file)
    (heof : file.eof = false) :
    (fillStep codecs file).1 = .ok () ∧ Fills codecs bytes (fillStep codecs file).2 := by
  obtain ⟨hsink, hended, hrest⟩ := h
  rw [if_neg (by rw [heof]; exact Bool.false_ne_true)] at hrest
  obtain ⟨writer, batches, tail, hwriter, hitems, henc, hbytes⟩ := hrest
  cases batches with
  | nil =>
    rw [encodeRest] at henc
    split at henc
    · next out hfinish =>
      obtain rfl := Except.ok.inj henc
      simp only [fillStep, hitems, List.map_nil, finish, hwriter, hfinish, drainSink, hsink,
        List.nil_append]
      exact ⟨trivial, rfl, rfl, hbytes.symm⟩
    · simp only [reduceCtorEq] at henc
  | cons batch rest =>
    rw [encodeRest] at henc
    split at henc
    · next out writer' hwrite =>
      cases hmore : encodeRest codecs writer' rest with
      | error err => simp only [hmore, Except.map, reduceCtorEq] at henc
      | ok tail' =>
        simp only [hmore, Except.map, Except.ok.injEq] at henc
        simp only [fillStep, hitems, List.map_cons, writeBatch, hwriter, hwrite, drainSink, hsink,
          List.nil_append]
        refine ⟨trivial, rfl, hended, ?_⟩
        rw [if_neg (by rw [heof]; exact Bool.false_ne_true)]
        exact ⟨writer', rest, tail', rfl, rfl, hmore,
          by rw [List.append_assoc, henc]; exact hbytes⟩
    · simp only [reduceCtorEq] at henc

/-- Filling such a file succeeds, emits what is wanted and moves nothing. -/
theorem fillUntil_fills (codecs : Codecs Writer Schema Batch) (bytes : List Byte)
    (target : Option Nat) (file : EncodedDbFile Writer Schema Batch)
    (h : Fills codecs bytes file) :
    ∃ next, fillUntil codecs target file = (.ok (), next) ∧ Fills codecs bytes next ∧
      next.position = file.position ∧ next.wants target = false := by
  revert h
  refine fillUntil_induction codecs target (fun file => Fills codecs bytes file →
    ∃ next, fillUntil codecs target file = (.ok (), next) ∧ Fills codecs bytes next ∧
      next.position = file.position ∧ next.wants target = false) ?_ ?_ ?_ file
  · intro file hwants h
    exact ⟨file, fillUntil_done codecs target file hwants, h, rfl, hwants⟩
  · intro file err next hwants hpass h
    have hok := (fillStep_fills codecs bytes file h ((wants_eq_true file target).mp hwants).1).1
    rw [hpass] at hok
    simp only [reduceCtorEq] at hok
  · intro file mid hwants hpass ih h
    have hmid := (fillStep_fills codecs bytes file h ((wants_eq_true file target).mp hwants).1).2
    have hpos := (fillStep_frame codecs file).1
    rw [hpass] at hmid hpos
    obtain ⟨next, hnext, hfills, hposition, hdone⟩ := ih hmid
    refine ⟨next, ?_, hfills, hposition.trans hpos, hdone⟩
    rw [fillUntil_eq, hwants, if_pos rfl, hpass]
    exact hnext

/- What was emitted is the beginning of the encoding, and all of it at the end. -/
theorem fills_prefix (codecs : Codecs Writer Schema Batch) (bytes : List Byte)
    (file : EncodedDbFile Writer Schema Batch) (h : Fills codecs bytes file) :
    ∃ tail, bytes = file.emitted ++ tail ∧ (file.eof = true → tail = []) := by
  obtain ⟨_, _, hrest⟩ := h
  cases heof : file.eof with
  | true =>
    rw [heof, if_pos rfl] at hrest
    exact ⟨[], by rw [List.append_nil, hrest], fun _ => rfl⟩
  | false =>
    rw [heof, if_neg Bool.false_ne_true] at hrest
    obtain ⟨_, _, tail, _, _, _, hbytes⟩ := hrest
    exact ⟨tail, hbytes, fun h => absurd h Bool.false_ne_true⟩

/- The window of a read, cut from what was emitted or from the whole. -/
theorem window_eq (emitted tail : List Byte) (start n : Nat) (hstart : start < emitted.length)
    (h : tail = [] ∨ start + n ≤ emitted.length) :
    ((emitted ++ tail).drop start).take n =
      (emitted.drop start).take (min n (emitted.length - start)) := by
  rw [List.drop_append_of_le_length (Nat.le_of_lt hstart)]
  rcases h with rfl | hle
  · rw [List.append_nil, ← List.take_take, ← List.length_drop, List.take_length]
  · have hmin : min n (emitted.length - start) = n := by omega
    rw [hmin, List.take_append_of_le_length]
    rw [List.length_drop]
    omega

theorem read_refines (codecs : Codecs Writer Schema Batch) (n : Nat)
    (file : EncodedDbFile Writer Schema Batch) (cursor : Cursor)
    (h : Represents codecs file cursor) :
    ∃ next, file.read codecs n = (.ok (cursor.read n).1, next) ∧
      Represents codecs next (cursor.read n).2 := by
  obtain ⟨hfills, hpos, hlt⟩ := h
  by_cases hn : n = 0
  · subst hn
    refine ⟨file, by rw [EncodedDbFile.read, if_pos rfl, Cursor.read, List.take_zero], ?_⟩
    simp only [Cursor.read, List.take_zero, List.length_nil, Nat.add_zero]
    exact ⟨hfills, hpos, hlt⟩
  · obtain ⟨next, hfill, hnext, hposition, hdone⟩ := fillUntil_fills codecs cursor.inner
      (some (min (file.position + n) USIZE_MAX)) file hfills
    obtain ⟨tail, hbytes, heof⟩ := fills_prefix codecs cursor.inner next hnext
    have hlen : cursor.inner.length = next.emitted.length + tail.length := by
      rw [hbytes, List.length_append]
    have hbound := cursor.inner_lt
    have henough : tail = [] ∨ file.position + n ≤ next.emitted.length := by
      by_cases he : next.eof = true
      · exact .inl (heof he)
      · refine .inr (Nat.le_of_not_lt fun hlt' => ?_)
        have hwants := (wants_eq_true next (some (min (file.position + n) USIZE_MAX))).mpr
          ⟨by simpa using he, fun t ht => by
            obtain rfl := Option.some.inj ht
            simp only [USIZE_MAX]
            omega⟩
        rw [hdone] at hwants
        exact Bool.false_ne_true hwants
    rw [EncodedDbFile.read, if_neg hn]
    simp only [hfill]
    by_cases hpast : next.emitted.length ≤ file.position
    · have htail : tail = [] := by
        rcases henough with h | h
        · exact h
        · omega
      have hall : cursor.inner = next.emitted := by rw [hbytes, htail, List.append_nil]
      have hdata : (cursor.read n).1 = [] := by
        rw [Cursor.read]
        dsimp only
        rw [List.drop_of_length_le (by rw [hall]; omega), List.take_nil]
      refine ⟨next, by rw [if_pos hpast, hdata], ?_⟩
      have hread : (cursor.read n).2 = cursor := by
        have hzero : (cursor.read n).1.length = 0 := by rw [hdata]; rfl
        simp only [Cursor.read] at hzero ⊢
        simp only [hzero, Nat.add_zero]
      rw [hread]
      exact ⟨hnext, hposition.trans hpos, hlt⟩
    · have hstart : file.position < next.emitted.length := Nat.lt_of_not_le hpast
      have hdata : (cursor.read n).1 = (next.emitted.drop file.position).take
          (min n (next.emitted.length - file.position)) := by
        rw [Cursor.read]
        dsimp only
        rw [← hpos, Nat.min_eq_left (by omega), hbytes]
        exact window_eq next.emitted tail file.position n hstart henough
      have hcount : (cursor.read n).1.length =
          min n (next.emitted.length - file.position) := by
        rw [hdata, List.length_take, List.length_drop]
        omega
      refine ⟨_, by rw [if_neg hpast, hdata], ?_⟩
      have hnextPos : (cursor.read n).2.pos = cursor.pos + (cursor.read n).1.length := rfl
      refine ⟨hnext, ?_, ?_⟩
      · rw [hnextPos, hcount, hposition, hpos]
      · rw [hnextPos, hcount]
        omega

/-! ### Seeking -/

/- The two ways of adding an offset to a position agree up to the error's text. -/
theorem offsetPosition_eq (base : Nat) (offset : Int) (hbase : base < 2 ^ 64) :
    (∃ n, offsetPosition base offset = .ok n ∧ Cursor.checkedAddSigned base offset = some n ∧
      n < 2 ^ 64) ∨
    ∃ err, offsetPosition base offset = .error err ∧ err.kind = .InvalidInput ∧
      Cursor.checkedAddSigned base offset = none := by
  unfold offsetPosition Cursor.checkedAddSigned
  split_ifs with h1 h2 h3 h4 h5 h6
  · exact .inl ⟨base + offset.natAbs, rfl, by congr 1; omega, h2⟩
  · omega
  · omega
  · exact .inr ⟨_, rfl, rfl, rfl⟩
  · exact .inl ⟨base - offset.natAbs, rfl, by congr 1; omega, by omega⟩
  · omega
  · omega
  · exact .inr ⟨_, rfl, rfl, rfl⟩

theorem seekTo_refines (codecs : Codecs Writer Schema Batch) (newPosition : Nat)
    (file : EncodedDbFile Writer Schema Batch) (cursor : Cursor)
    (h : Fills codecs cursor.inner file) (hlt : newPosition < 2 ^ 64) :
    ∃ next, file.seekTo codecs newPosition = (.ok newPosition, next) ∧
      Represents codecs next { cursor with pos := newPosition } := by
  obtain ⟨next, hfill, hnext, _, _⟩ := fillUntil_fills codecs cursor.inner (some newPosition) file h
  exact ⟨{ next with position := newPosition }, by simp only [EncodedDbFile.seekTo, hfill],
    hnext, rfl, hlt⟩

/-- A seek of the file is the seek of the cursor, an error having the same kind. -/
theorem seek_refines (codecs : Codecs Writer Schema Batch) (pos : SeekFrom)
    (file : EncodedDbFile Writer Schema Batch) (cursor : Cursor)
    (h : Represents codecs file cursor) :
    (∃ n next, file.seek codecs pos = (.ok n, next) ∧
      cursor.seek pos = (.ok n, { cursor with pos := n }) ∧
      Represents codecs next { cursor with pos := n }) ∨
    ∃ err err' next, file.seek codecs pos = (.error err, next) ∧
      cursor.seek pos = (.error err', cursor) ∧ err.kind = err'.kind ∧
      Represents codecs next cursor := by
  obtain ⟨hfills, hpos, hlt⟩ := h
  cases pos with
  | Start position =>
    obtain ⟨next, hseek, hnext⟩ := seekTo_refines codecs position.toNat file cursor hfills
      position.toNat_lt
    exact .inl ⟨position.toNat, next, hseek, rfl, hnext⟩
  | Current offset =>
    rcases offsetPosition_eq cursor.pos offset.toInt hlt with
      ⟨n, hfile, hcursor, hn⟩ | ⟨err, hfile, hkind, hcursor⟩
    · obtain ⟨next, hseek, hnext⟩ := seekTo_refines codecs n file cursor hfills hn
      refine .inl ⟨n, next, ?_, by simp only [Cursor.seek, hcursor], hnext⟩
      simp only [EncodedDbFile.seek, hpos, hfile, hseek]
    · refine .inr ⟨err, Cursor.invalidSeek, file, ?_, by simp only [Cursor.seek, hcursor], hkind,
        hfills, hpos, hlt⟩
      simp only [EncodedDbFile.seek, hpos, hfile]
  | End offset =>
    obtain ⟨mid, hfill, hmid, hposition, hdone⟩ := fillUntil_fills codecs cursor.inner none file
      hfills
    have heof : mid.eof = true := by
      cases he : mid.eof with
      | true => rfl
      | false =>
        have hwants := (wants_eq_true mid none).mpr ⟨he, fun t ht => absurd ht (by simp)⟩
        rw [hdone] at hwants
        exact hwants
    have hall : mid.emitted.length = cursor.inner.length := by
      obtain ⟨tail, hbytes, htail⟩ := fills_prefix codecs cursor.inner mid hmid
      rw [hbytes, htail heof, List.append_nil]
    have hbase : cursor.inner.length < 2 ^ 64 := by
      have := cursor.inner_lt
      omega
    rcases offsetPosition_eq cursor.inner.length offset.toInt hbase with
      ⟨n, hfile, hcursor, hn⟩ | ⟨err, hfile, hkind, hcursor⟩
    · obtain ⟨next, hseek, hnext⟩ := seekTo_refines codecs n mid cursor hmid hn
      refine .inl ⟨n, next, ?_, by simp only [Cursor.seek, hcursor], hnext⟩
      simp only [EncodedDbFile.seek, hfill, hall, hfile, hseek]
    · refine .inr ⟨err, Cursor.invalidSeek, mid, ?_, by simp only [Cursor.seek, hcursor], hkind,
        hmid, hposition.trans hpos, hlt⟩
      simp only [EncodedDbFile.seek, hfill, hall, hfile]

/-! ### Runs -/

theorem call_refines (codecs : Codecs Writer Schema Batch)
    (file : EncodedDbFile Writer Schema Batch) (cursor : Cursor) (c : Call)
    (h : Represents codecs file cursor) :
    (call codecs file c).1 = (cursor.call c).1 ∧
      Represents codecs (call codecs file c).2 (cursor.call c).2 := by
  cases c with
  | read n =>
    obtain ⟨next, hread, hnext⟩ := read_refines codecs n file cursor h
    simp only [call, hread, Cursor.call]
    exact ⟨trivial, hnext⟩
  | seek pos =>
    rcases seek_refines codecs pos file cursor h with
      ⟨n, next, hfile, hcursor, hnext⟩ | ⟨err, err', next, hfile, hcursor, hkind, hnext⟩
    · simp only [call, hfile, Cursor.call, hcursor]
      exact ⟨trivial, hnext⟩
    · simp only [call, hfile, Cursor.call, hcursor, hkind]
      exact ⟨trivial, hnext⟩

theorem new_represents (codecs : Codecs Writer Schema Batch) (format : DataFormat)
    (schema : Schema) (batches : List Batch) (info : FileInfo) (bytes : List Byte)
    (hlen : bytes.length < 2 ^ 63) (henc : encode codecs format schema batches = .ok bytes) :
    ∃ file, EncodedDbFile.new codecs ⟨schema, batches.map .ok, false⟩ format info = .ok file ∧
      Represents codecs file (Cursor.new bytes hlen) := by
  unfold encode at henc
  cases hstart : formatEncoder codecs format schema with
  | error err => simp only [hstart, reduceCtorEq] at henc
  | ok started =>
    obtain ⟨writer, header⟩ := started
    simp only [hstart] at henc
    cases hrest : encodeRest codecs writer batches with
    | error err => simp only [hrest, Except.map, reduceCtorEq] at henc
    | ok tail =>
      simp only [hrest, Except.map, Except.ok.injEq] at henc
      refine ⟨⟨⟨schema, batches.map .ok, false⟩, some writer, [], header, 0, info, false⟩,
        by simp only [EncodedDbFile.new, hstart, Except.map], ?_, rfl, by simp [Cursor.new]⟩
      refine ⟨rfl, rfl, ?_⟩
      rw [if_neg Bool.false_ne_true]
      exact ⟨writer, batches, tail, rfl, rfl, hrest, henc.symm⟩

theorem size_of_fills (codecs : Codecs Writer Schema Batch) (bytes : List Byte)
    (file : EncodedDbFile Writer Schema Batch) (h : Fills codecs bytes file) :
    file.size = if file.reader.ended then some bytes.length else none := by
  obtain ⟨_, hended, hrest⟩ := h
  rw [size, ← hended]
  cases heof : file.eof with
  | true =>
    rw [heof, if_pos rfl] at hrest
    rw [hrest]
  | false => rfl

/- A cursor reads less than asked only at the end of its data. -/
theorem Cursor.read_short (n : Nat) (cursor : Cursor) (h : (cursor.read n).1.length < n) :
    cursor.inner.length ≤ cursor.pos + (cursor.read n).1.length := by
  simp only [Cursor.read, List.length_take, List.length_drop] at h ⊢
  omega

theorem Cursor.run_inner (cursor : Cursor) (calls : List Call) :
    (Mealy.run Cursor.call cursor calls).2.inner = cursor.inner := by
  refine Mealy.run_invariant (I := fun c => c.inner = cursor.inner) ?_ cursor calls rfl
  intro c a h
  cases a with
  | read n => exact h
  | seek pos =>
    cases pos with
    | Start position => exact h
    | Current offset =>
      simp only [Cursor.call, Cursor.seek]
      split <;> (rename_i heq; split at heq <;> (obtain rfl := (Prod.mk.inj heq).2; exact h))
    | End offset =>
      simp only [Cursor.call, Cursor.seek]
      split <;> (rename_i heq; split at heq <;> (obtain rfl := (Prod.mk.inj heq).2; exact h))

/-- The file over a reader that yields the batches answers every sequence of
reads and seeks as a cursor over their complete encoding does. Its size is known
once the reader has ended, and is the length of the encoding; a read is short
only at the end of the encoding, and a failed seek does not move. -/
theorem encodedDbFile_refines_cursor (codecs : Codecs Writer Schema Batch) (format : DataFormat)
    (schema : Schema) (batches : List Batch) (info : FileInfo) (bytes : List Byte)
    (hlen : bytes.length < 2 ^ 63) (henc : encode codecs format schema batches = .ok bytes) :
    ∃ file, EncodedDbFile.new codecs ⟨schema, batches.map .ok, false⟩ format info = .ok file ∧
      ∀ calls,
        let last := (Mealy.run (call codecs) file calls).2
        (Mealy.run (call codecs) file calls).1 =
          (Mealy.run Cursor.call (Cursor.new bytes hlen) calls).1 ∧
        last.position = (Mealy.run Cursor.call (Cursor.new bytes hlen) calls).2.pos ∧
        last.size = (if last.reader.ended then some bytes.length else none) ∧
        (∀ n, ∃ data next, last.read codecs n = (.ok data, next) ∧
          (data.length < n → bytes.length ≤ last.position + data.length)) ∧
        ∀ pos err next, last.seek codecs pos = (.error err, next) →
          next.position = last.position := by
  obtain ⟨file, hnew, hstart⟩ := new_represents codecs format schema batches info bytes hlen henc
  refine ⟨file, hnew, fun calls => ?_⟩
  obtain ⟨houts, hlast⟩ := Mealy.run_simulation
    (fun file cursor c h => call_refines codecs file cursor c h) file (Cursor.new bytes hlen)
    calls hstart
  have hinner := Cursor.run_inner (Cursor.new bytes hlen) calls
  generalize Mealy.run (call codecs) file calls = run at houts hlast
  generalize Mealy.run Cursor.call (Cursor.new bytes hlen) calls = run' at houts hlast hinner
  obtain ⟨outs, last⟩ := run
  obtain ⟨outs', cursor⟩ := run'
  dsimp only at houts hlast hinner ⊢
  have hbytes : cursor.inner = bytes := hinner
  refine ⟨houts, hlast.2.1, ?_, ?_, ?_⟩
  · have hsize := size_of_fills codecs cursor.inner last hlast.1
    rwa [hbytes] at hsize
  · intro n
    obtain ⟨next, hread, _⟩ := read_refines codecs n last cursor hlast
    refine ⟨_, next, hread, fun hshort => ?_⟩
    have hend := Cursor.read_short n cursor hshort
    rwa [hbytes, ← hlast.2.1] at hend
  · intro pos err next hseek
    rcases seek_refines codecs pos last cursor hlast with
      ⟨n, mid, hfile, _, _⟩ | ⟨err', _, mid, hfile, _, _, hmid⟩
    · rw [hseek] at hfile
      exact absurd (Prod.mk.inj hfile).1 (by simp)
    · rw [hseek] at hfile
      obtain rfl := (Prod.mk.inj hfile).2
      exact hmid.2.1.trans hlast.2.1.symm

/-- The CSV writer on one text column whose values need no quotes: the schema is
the column's name, a batch its values, the state whether the header is out. -/
def csvCodecs : Codecs (Str × Bool) Str (List Str) where
  startOwnedWriter
    | .Csv, schema => .ok ((schema, false), [])
    | _, _ => .error (.NotSupported "only CSV".toList)
  writeBatch writer batch :=
    let lines := batch.flatMap fun value => Utf8.encode value ++ [10]
    (if writer.2 then lines else Utf8.encode writer.1 ++ 10 :: lines, (writer.1, true), none)
  finish _ := ([], none)

/-- Two batches as CSV: a read, a seek back from the end, a short read. -/
theorem csv_file_reads_like_cursor :
    ∃ file, EncodedDbFile.new csvCodecs
        ⟨"id".toList, [.ok ["1".toList], .ok ["2".toList]], false⟩ .Csv (FileInfo.file [] 0) =
          .ok file ∧
      (Mealy.run (call csvCodecs) file [.read 4, .seek (.End (-2)), .read 9]).1 =
        [.bytes (Utf8.encode "id\n1".toList), .position 5, .bytes (Utf8.encode "2\n".toList)] := by
  obtain ⟨file, hnew, hcalls⟩ := encodedDbFile_refines_cursor csvCodecs .Csv "id".toList
    [["1".toList], ["2".toList]] (FileInfo.file [] 0) (Utf8.encode "id\n1\n2\n".toList)
    (by decide) (by decide)
  exact ⟨file, hnew, (hcalls _).1.trans (by decide)⟩

end FsspecDb.Encoded
