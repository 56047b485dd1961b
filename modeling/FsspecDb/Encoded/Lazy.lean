import FsspecDb.Encoded.Cursor
import FsspecDb.Lib.Checked

/-!
# No batch is taken before it is needed (stream.rs, `fill_until`)

After any reads and seeks the file has taken the fewest batches from the database whose encoding
reaches every position that was asked for.
-/

namespace FsspecDb.Encoded
open EncodedDbFile

variable {Writer Schema Batch : Type}

/-- The writer and all that was emitted, with some batches written. -/
def written (codecs : Codecs Writer Schema Batch) (start : Writer × List Byte)
    (batches : List Batch) : Writer × List Byte :=
  batches.foldl (fun s batch =>
    ((codecs.writeBatch s.1 batch).2.1, s.2 ++ (codecs.writeBatch s.1 batch).1)) start

/- The lengths that a call asks the file to reach; `none` asks for the end of the data. -/
def demand (cursor : Cursor) : Call → List (Option Nat)
  | .read n => if n = 0 then [] else [some (min (cursor.pos + n) USIZE_MAX)]
  | .seek (.Start position) => [some position.toNat]
  | .seek (.Current offset) =>
    ((Cursor.checkedAddSigned cursor.pos offset.toInt).map some).toList
  | .seek (.End _) => [none]

/-- What a sequence of calls asks for, by the positions of the cursor. -/
def demands (cursor : Cursor) : List Call → List (Option Nat)
  | [] => []
  | c :: calls => demand cursor c ++ demands (cursor.call c).2 calls

/- A length does not reach what was asked for. -/
def Short (length : Nat) (target : Option Nat) : Prop := ∀ t, target = some t → length < t

/-- The file has taken the first `k` batches, each of them for a position asked for, and what was
asked for is there. -/
structure Takes (codecs : Codecs Writer Schema Batch) (start : Writer × List Byte)
    (batches : List Batch) (asked : List (Option Nat)) (k : Nat)
    (file : EncodedDbFile Writer Schema Batch) : Prop where
  le : k ≤ batches.length
  items : file.reader.items = (batches.drop k).map .ok
  emitted : file.eof = false → file.writer = some (written codecs start (batches.take k)).1 ∧
    file.emitted = (written codecs start (batches.take k)).2
  ended : file.eof = true → k = batches.length
  needed : ∀ j < k, ∃ target ∈ asked, Short (written codecs start (batches.take j)).2.length target
  endNeeded : file.eof = true →
    ∃ target ∈ asked, Short (written codecs start batches).2.length target

theorem written_snoc (codecs : Codecs Writer Schema Batch) (start : Writer × List Byte)
    (batches : List Batch) (k : Nat) (batch : Batch) (h : batches[k]? = some batch) :
    written codecs start (batches.take (k + 1)) =
      ((codecs.writeBatch (written codecs start (batches.take k)).1 batch).2.1,
        (written codecs start (batches.take k)).2 ++
          (codecs.writeBatch (written codecs start (batches.take k)).1 batch).1) := by
  rw [List.take_add_one, h, Option.toList_some, written, List.foldl_append]
  rfl

section
variable {codecs : Codecs Writer Schema Batch} {start : Writer × List Byte}
  {batches : List Batch} {asked : List (Option Nat)} {k : Nat}
  {file : EncodedDbFile Writer Schema Batch}

theorem Takes.mono (h : Takes codecs start batches asked k file) (more : List (Option Nat)) :
    Takes codecs start batches (asked ++ more) k file := by
  refine ⟨h.le, h.items, h.emitted, h.ended, fun j hj => ?_, fun heof => ?_⟩
  · obtain ⟨target, hmem, hshort⟩ := h.needed j hj
    exact ⟨target, List.mem_append_left _ hmem, hshort⟩
  · obtain ⟨target, hmem, hshort⟩ := h.endNeeded heof
    exact ⟨target, List.mem_append_left _ hmem, hshort⟩

/- One pass of the loop takes the next batch, or finds the end. -/
theorem Takes.fillStep (bytes : List Byte) (target : Option Nat)
    (h : Takes codecs start batches asked k file) (hfills : Fills codecs bytes file)
    (htarget : target ∈ asked) (hwants : file.wants target = true)
    (next : EncodedDbFile Writer Schema Batch)
    (hpass : EncodedDbFile.fillStep codecs file = (.ok (), next)) :
    ∃ k', k ≤ k' ∧ Takes codecs start batches asked k' next := by
  obtain ⟨heof, hshort⟩ := (wants_eq_true file target).mp hwants
  obtain ⟨hwriter, hemitted⟩ := h.emitted heof
  rw [hemitted] at hshort
  cases hbatch : batches[k]? with
  | none =>
    have hk : k = batches.length := by
      have hle := List.getElem?_eq_none_iff.mp hbatch
      have hbound := h.le
      omega
    have hitems := h.items
    rw [hk, List.drop_length, List.map_nil] at hitems
    obtain ⟨hreader, _, _, _, hended⟩ := fillStep_nil codecs file hitems
    rw [hpass] at hreader hended
    have hend := hended rfl
    refine ⟨k, Nat.le_refl k, h.le, ?_, fun hopen => ?_, fun _ => hk, h.needed,
      fun _ => ⟨target, htarget, ?_⟩⟩
    · rw [hreader]
      exact h.items
    · rw [hend] at hopen
      cases hopen
    · rw [hk, List.take_length] at hshort
      exact hshort
  | some batch =>
    have hlt : k < batches.length := (List.getElem?_eq_some_iff.mp hbatch).1
    have hdrop : batches.drop k = batch :: batches.drop (k + 1) := by
      rw [List.drop_eq_getElem_cons hlt, (List.getElem?_eq_some_iff.mp hbatch).2]
    have hitems := h.items
    rw [hdrop, List.map_cons] at hitems
    obtain ⟨out, writer, failed, hwrite⟩ : ∃ out writer failed,
        codecs.writeBatch (written codecs start (batches.take k)).1 batch = (out, writer, failed) :=
      ⟨_, _, _, rfl⟩
    cases failed with
    | some err =>
      simp only [EncodedDbFile.fillStep, hitems, writeBatch, hwriter, hwrite, Prod.mk.injEq,
        reduceCtorEq, false_and] at hpass
    | none =>
      simp only [EncodedDbFile.fillStep, hitems, writeBatch, hwriter, hwrite, Prod.mk.injEq,
        true_and] at hpass
      have hsnoc := written_snoc codecs start batches k batch hbatch
      rw [hwrite] at hsnoc
      rw [← hpass]
      refine ⟨k + 1, Nat.le_succ k, hlt, rfl, fun _ => ?_, fun hend => ?_, fun j hj => ?_,
        fun hend => ?_⟩
      · rw [hsnoc]
        refine ⟨rfl, ?_⟩
        simp only [drainSink, hfills.1, hemitted, List.nil_append]
      · exact absurd (heof.symm.trans hend) Bool.false_ne_true
      · by_cases hjk : j < k
        · exact h.needed j hjk
        · have hj : j = k := by omega
          exact ⟨target, htarget, hj ▸ hshort⟩
      · exact absurd (heof.symm.trans hend) Bool.false_ne_true

theorem Takes.fillUntil (bytes : List Byte) (target : Option Nat) (htarget : target ∈ asked)
    (h : Takes codecs start batches asked k file) (hfills : Fills codecs bytes file) :
    ∃ k', k ≤ k' ∧
      Takes codecs start batches asked k' (EncodedDbFile.fillUntil codecs target file).2 := by
  revert k
  refine fillUntil_induction codecs target (fun file => Fills codecs bytes file → ∀ {k},
    Takes codecs start batches asked k file → ∃ k', k ≤ k' ∧
      Takes codecs start batches asked k' (EncodedDbFile.fillUntil codecs target file).2)
    ?_ ?_ ?_ file hfills
  · intro file hwants _ k h
    rw [fillUntil_done codecs target file hwants]
    exact ⟨k, Nat.le_refl k, h⟩
  · intro file err next hwants hpass hfills k h
    have hok := (fillStep_fills codecs bytes file hfills
      ((wants_eq_true file target).mp hwants).1).1
    rw [hpass] at hok
    cases hok
  · intro file mid hwants hpass ih hfills k h
    have hmid := (fillStep_fills codecs bytes file hfills
      ((wants_eq_true file target).mp hwants).1).2
    rw [hpass] at hmid
    obtain ⟨k', hle, htakes⟩ := h.fillStep bytes target hfills htarget hwants mid hpass
    obtain ⟨k'', hle', hlast⟩ := ih hmid htakes
    rw [fillUntil_eq, hwants, if_pos rfl, hpass]
    exact ⟨k'', Nat.le_trans hle hle', hlast⟩

/- Moving the position takes nothing. -/
theorem Takes.moved (h : Takes codecs start batches asked k file) (position : Nat) :
    Takes codecs start batches asked k { file with position := position } :=
  ⟨h.le, h.items, h.emitted, h.ended, h.needed, h.endNeeded⟩

end

theorem written_mono (codecs : Codecs Writer Schema Batch) (start : Writer × List Byte)
    (batches : List Batch) {j k : Nat} (h : j ≤ k) :
    (written codecs start (batches.take j)).2.length ≤
      (written codecs start (batches.take k)).2.length := by
  induction k with
  | zero => rw [Nat.le_zero.mp h]
  | succ k ih =>
    by_cases hjk : j ≤ k
    · refine Nat.le_trans (ih hjk) ?_
      cases hbatch : batches[k]? with
      | none =>
        have hle := List.getElem?_eq_none_iff.mp hbatch
        rw [List.take_of_length_le hle, List.take_of_length_le (by omega)]
      | some batch =>
        rw [written_snoc codecs start batches k batch hbatch, List.length_append]
        omega
    · have heq : j = k + 1 := by omega
      rw [heq]

/-! ### Calls -/

/-- The fewest batches that reach what was asked for: each of the `k` was needed, and they are
enough or all there are. -/
def TakesLeast (codecs : Codecs Writer Schema Batch) (start : Writer × List Byte)
    (batches : List Batch) (asked : List (Option Nat)) (file : EncodedDbFile Writer Schema Batch) :
    Prop :=
  ∃ k, Takes codecs start batches asked k file ∧
    (file.eof = true ∨
      ∀ target ∈ asked, ¬ Short (written codecs start (batches.take k)).2.length target)

section
variable {codecs : Codecs Writer Schema Batch} {start : Writer × List Byte}
  {batches : List Batch} {asked : List (Option Nat)} {bytes : List Byte}
  {file : EncodedDbFile Writer Schema Batch}

theorem TakesLeast.fillUntil (target : Option Nat) (h : TakesLeast codecs start batches asked file)
    (hfills : Fills codecs bytes file) :
    TakesLeast codecs start batches (asked ++ [target])
      (EncodedDbFile.fillUntil codecs target file).2 := by
  obtain ⟨k, htakes, hmet⟩ := h
  obtain ⟨k', hle, hnext⟩ := (htakes.mono [target]).fillUntil bytes target (by simp) hfills
  obtain ⟨next, hfill, _, _, hdone⟩ := fillUntil_fills codecs bytes target file hfills
  refine ⟨k', hnext, ?_⟩
  rw [hfill] at hnext ⊢
  cases heof : next.eof with
  | true => exact .inl rfl
  | false =>
    refine .inr fun asked' hasked => ?_
    obtain ⟨_, hemitted⟩ := hnext.emitted heof
    rcases List.mem_append.mp hasked with hold | hnew
    · rcases hmet with hend | hmet
      · have hstop := fillUntil_done codecs target file (wants_eof file target hend)
        rw [hfill] at hstop
        rw [(Prod.mk.inj hstop).2, hend] at heof
        cases heof
      · intro hshort
        refine hmet asked' hold fun t ht => Nat.lt_of_le_of_lt ?_ (hshort t ht)
        exact written_mono codecs start batches hle
    · rw [List.mem_singleton.mp hnew]
      intro hshort
      rw [← hemitted] at hshort
      have hwants := (wants_eq_true next target).mpr ⟨heof, hshort⟩
      rw [hdone] at hwants
      cases hwants

theorem TakesLeast.moved (h : TakesLeast codecs start batches asked file) (position : Nat) :
    TakesLeast codecs start batches asked { file with position := position } := by
  obtain ⟨k, htakes, hmet⟩ := h
  exact ⟨k, htakes.moved position, hmet⟩

theorem TakesLeast.seekTo (position : Nat) (h : TakesLeast codecs start batches asked file)
    (hfills : Fills codecs bytes file) :
    TakesLeast codecs start batches (asked ++ [some position]) (file.seekTo codecs position).2 := by
  have hnext := h.fillUntil (some position) hfills
  obtain ⟨next, hfill, _⟩ := fillUntil_fills codecs bytes (some position) file hfills
  rw [hfill] at hnext
  simp only [EncodedDbFile.seekTo, hfill]
  exact hnext.moved position

theorem TakesLeast.call (cursor : Cursor) (c : Call)
    (h : TakesLeast codecs start batches asked file) (hrep : Represents codecs file cursor) :
    TakesLeast codecs start batches (asked ++ demand cursor c) (Encoded.call codecs file c).2 := by
  obtain ⟨hfills, hpos, hlt⟩ := hrep
  cases c with
  | read n =>
    rw [demand]
    by_cases hn : n = 0
    · rw [if_pos hn, List.append_nil]
      simp only [Encoded.call, EncodedDbFile.read, if_pos hn]
      exact h
    · have hnext := h.fillUntil (some (min (cursor.pos + n) USIZE_MAX)) hfills
      obtain ⟨next, hfill, _⟩ := fillUntil_fills codecs cursor.inner
        (some (min (cursor.pos + n) USIZE_MAX)) file hfills
      rw [hfill] at hnext
      rw [if_neg hn]
      simp only [Encoded.call, EncodedDbFile.read, if_neg hn, hpos, hfill]
      by_cases hpast : next.emitted.length ≤ cursor.pos
      · simp only [if_pos hpast]
        exact hnext
      · simp only [if_neg hpast]
        exact hnext.moved _
  | seek pos =>
    have hcall : (Encoded.call codecs file (.seek pos)).2 = (file.seek codecs pos).2 := by
      simp only [Encoded.call]
      split <;> next heq => rw [heq]
    rw [hcall]
    cases pos with
    | Start position => exact h.seekTo position.toNat hfills
    | Current offset =>
      rw [demand]
      rcases offsetPosition_eq cursor.pos offset.toInt hlt with
        ⟨n, hfile, hcursor, _⟩ | ⟨err, hfile, _, hcursor⟩
      · rw [hcursor]
        simp only [EncodedDbFile.seek, hpos, hfile]
        exact h.seekTo n hfills
      · rw [hcursor]
        simp only [EncodedDbFile.seek, hpos, hfile, Option.map_none, Option.toList_none,
          List.append_nil]
        exact h
    | End offset =>
      have hnext := h.fillUntil none hfills
      obtain ⟨next, hfill, hnextFills, _, hdone⟩ :=
        fillUntil_fills codecs cursor.inner none file hfills
      rw [hfill] at hnext
      have heof := eof_of_not_wants next hdone
      simp only [EncodedDbFile.seek, hfill, demand]
      cases hoffset : offsetPosition next.emitted.length offset.toInt with
      | error err => exact hnext
      | ok newPosition =>
        have hstop := fillUntil_done codecs (some newPosition) next
          (wants_eof next (some newPosition) heof)
        simp only [EncodedDbFile.seekTo, hstop]
        exact hnext.moved newPosition

end

/-- The file over the batches of a query, after any reads and seeks: it has taken the fewest
batches whose encoding reaches every position that the calls asked for. -/
theorem encodedDbFile_takes_least (codecs : Codecs Writer Schema Batch) (format : DataFormat)
    (schema : Schema) (batches : List Batch) (info : FileInfo) (bytes : List Byte)
    (hlen : bytes.length < 2 ^ 63) (henc : encode codecs format schema batches = .ok bytes) :
    ∃ start file, formatEncoder codecs format schema = .ok start ∧
      EncodedDbFile.new codecs ⟨schema, batches.map .ok, false⟩ format info = .ok file ∧
      ∀ calls, TakesLeast codecs start batches (demands (Cursor.new bytes hlen) calls)
        (Mealy.run (call codecs) file calls).2 := by
  obtain ⟨file, hnew, hrep⟩ := new_represents codecs format schema batches info bytes hlen henc
  obtain ⟨start, hstart, hfile⟩ := Checked.map_eq_ok_iff.mp hnew
  refine ⟨start, file, hstart, hnew, fun calls => ?_⟩
  have hfirst : TakesLeast codecs start batches [] file := by
    subst hfile
    refine ⟨0, ⟨Nat.zero_le _, rfl, fun _ => ⟨rfl, rfl⟩, fun heof => ?_, fun j hj => ?_,
      fun heof => ?_⟩, .inr fun target htarget => ?_⟩
    · cases heof
    · omega
    · cases heof
    · cases htarget
  have hrun (asked : List (Option Nat)) (cursor : Cursor)
      (file : EncodedDbFile Writer Schema Batch)
      (h : TakesLeast codecs start batches asked file) (hrep : Represents codecs file cursor) :
      TakesLeast codecs start batches (asked ++ demands cursor calls)
        (Mealy.run (call codecs) file calls).2 := by
    clear hfirst hfile hnew
    induction calls generalizing asked cursor file with
    | nil =>
      rw [demands, List.append_nil]
      exact h
    | cons c calls ih =>
      rw [demands, ← List.append_assoc, Mealy.run_cons]
      exact ih _ _ _ (h.call cursor c hrep) (call_refines codecs file cursor c hrep).2
  exact hrun [] _ file hfirst hrep

/- Two batches of one row as CSV, under any calls. -/
theorem csv_file_takes_least :
    ∃ start file, formatEncoder csvCodecs .Csv "id".toList = .ok start ∧
      EncodedDbFile.new csvCodecs ⟨"id".toList, [.ok ["1".toList], .ok ["2".toList]], false⟩ .Csv
        (FileInfo.file "/main/users.csv".toList 0) = .ok file ∧
      ∀ calls, TakesLeast csvCodecs start [["1".toList], ["2".toList]]
        (demands (Cursor.new (Utf8.encode "id\n1\n2\n".toList) (by decide)) calls)
        (Mealy.run (call csvCodecs) file calls).2 :=
  encodedDbFile_takes_least csvCodecs .Csv "id".toList [["1".toList], ["2".toList]]
    (FileInfo.file "/main/users.csv".toList 0) _ (by decide) (by decide)

end FsspecDb.Encoded
