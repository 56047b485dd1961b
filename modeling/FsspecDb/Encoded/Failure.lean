import FsspecDb.Encoded.Honest

/-!
# A failed stream and all later calls

Along a sequence of calls the file stays incomplete and honest exactly if every
call is covered; but no failed file stays incomplete under every sequence.
-/

namespace FsspecDb.Encoded
open EncodedDbFile

variable {Writer Schema Batch : Type}

theorem seekTo_info (codecs : Codecs Writer Schema Batch) (newPosition : Nat)
    (file : EncodedDbFile Writer Schema Batch) :
    (file.seekTo codecs newPosition).2.info = file.info := by
  have hinfo := (fillUntil_frame codecs (some newPosition) file).1.2.1
  cases hfill : fillUntil codecs (some newPosition) file with
  | mk result next =>
    rw [hfill] at hinfo
    cases result <;> simpa only [seekTo, hfill] using hinfo

theorem read_info (codecs : Codecs Writer Schema Batch) (n : Nat)
    (file : EncodedDbFile Writer Schema Batch) : (file.read codecs n).2.info = file.info := by
  have hinfo := (fillUntil_frame codecs (some (min (file.position + n) USIZE_MAX)) file).1.2.1
  by_cases hn : n = 0
  · rw [EncodedDbFile.read, if_pos hn]
  · cases hfill : fillUntil codecs (some (min (file.position + n) USIZE_MAX)) file with
    | mk result next =>
      rw [hfill] at hinfo
      simp only [EncodedDbFile.read, if_neg hn, hfill]
      cases result with
      | error err => exact hinfo
      | ok _ => dsimp only; split <;> exact hinfo

theorem seek_info (codecs : Codecs Writer Schema Batch) (pos : SeekFrom)
    (file : EncodedDbFile Writer Schema Batch) : (file.seek codecs pos).2.info = file.info := by
  cases pos with
  | Start position => exact seekTo_info codecs _ file
  | Current offset =>
    cases hposition : offsetPosition file.position offset.toInt with
    | error err => simp only [seek, hposition]
    | ok position => simpa only [seek, hposition] using seekTo_info codecs position file
  | End offset =>
    have hinfo := (fillUntil_frame codecs none file).1.2.1
    cases hfill : fillUntil codecs none file with
    | mk result next =>
      rw [hfill] at hinfo
      cases result with
      | error err => simpa only [seek, hfill] using hinfo
      | ok _ =>
        cases hposition : offsetPosition next.emitted.length offset.toInt with
        | error err => simpa only [seek, hfill, hposition] using hinfo
        | ok position =>
          simpa only [seek, hfill, hposition] using (seekTo_info codecs position next).trans hinfo

theorem call_info (codecs : Codecs Writer Schema Batch) (file : EncodedDbFile Writer Schema Batch)
    (c : Call) : (call codecs file c).2.info = file.info := by
  cases c with
  | read n =>
    have hread := read_info codecs n file
    cases hcall : file.read codecs n with
    | mk result next =>
      rw [hcall] at hread
      cases result <;> simpa only [call, hcall] using hread
  | seek pos =>
    have hseek := seek_info codecs pos file
    cases hcall : file.seek codecs pos with
    | mk result next =>
      rw [hcall] at hseek
      cases result <;> simpa only [call, hcall] using hseek

/- With an info that leaves the size open, a file looks complete exactly at its end. -/
theorem complete_iff (file : EncodedDbFile Writer Schema Batch)
    (hinfo : file.info.get "size_known".toList = some "false".toList) :
    Complete file ↔ file.eof = true := by
  cases heof : file.eof with
  | true => simp [Complete, size, heof]
  | false =>
    simp only [Complete, size, fileInfo, heof, Bool.false_eq_true, if_false, hinfo]
    simp

theorem neverComplete_iff (codecs : Codecs Writer Schema Batch)
    (file : EncodedDbFile Writer Schema Batch) (calls : List Call) (heof : file.eof = false)
    (hinfo : file.info.get "size_known".toList = some "false".toList) :
    NeverComplete codecs file calls ↔ AllCovered codecs file calls := by
  have hopen : ¬ Complete file := by rw [complete_iff file hinfo, heof]; exact Bool.false_ne_true
  induction calls generalizing file with
  | nil => exact ⟨fun _ => trivial, fun _ => hopen⟩
  | cons c calls ih =>
    have hone := honest_iff_covered codecs file c heof
    have hinfo' : (call codecs file c).2.info.get "size_known".toList = some "false".toList := by
      rw [call_info]; exact hinfo
    constructor
    · intro h
      have hnext : (call codecs file c).2.eof = false := by
        have hnot : ¬ Complete (call codecs file c).2 := by
          cases calls with
          | nil => exact h.2.2
          | cons _ _ => exact h.2.2.1
        rw [complete_iff _ hinfo'] at hnot
        simpa using hnot
      have hnot' : ¬ Complete (call codecs file c).2 := by
        rw [complete_iff _ hinfo', hnext]; exact Bool.false_ne_true
      exact ⟨hone.mp ⟨h.2.1, hnext⟩, (ih _ hnext hinfo' hnot').mp h.2.2⟩
    · intro h
      obtain ⟨hanswer, hnext⟩ := hone.mpr h.1
      have hnot' : ¬ Complete (call codecs file c).2 := by
        rw [complete_iff _ hinfo', hnext]; exact Bool.false_ne_true
      exact ⟨hopen, hanswer, (ih _ hnext hinfo' hnot').mpr h.2⟩

/- A filling to the end that fails has used up an item of the reader or the writer. -/
def remaining (file : EncodedDbFile Writer Schema Batch) : Nat :=
  file.reader.items.length + (if file.writer.isSome then 1 else 0)

theorem writeBatch_isSome (codecs : Codecs Writer Schema Batch) (batch : Batch)
    (file : EncodedDbFile Writer Schema Batch) :
    (writeBatch codecs batch file).2.writer.isSome = file.writer.isSome := by
  unfold writeBatch
  cases h : file.writer with
  | none => simp [h]
  | some writer => dsimp only; split <;> rfl

theorem fillStep_remaining (codecs : Codecs Writer Schema Batch)
    (file next : EncodedDbFile Writer Schema Batch) (result : Except IoError Unit)
    (h : fillStep codecs file = (result, next)) :
    remaining next < remaining file ∨ result = .ok () ∧ next.eof = true := by
  cases hitems : file.reader.items with
  | cons item rest =>
    left
    have hreader := (fillStep_cons codecs file item rest hitems).1
    rw [h] at hreader
    dsimp only at hreader
    have hwriter : next.writer.isSome = file.writer.isSome := by
      cases item with
      | error err =>
        simp only [fillStep, hitems, Prod.mk.injEq] at h
        rw [← h.2]
      | ok batch =>
        have hsome := writeBatch_isSome codecs batch
          { file with reader := { file.reader with items := rest } }
        simp only [fillStep, hitems] at h
        generalize writeBatch codecs batch _ = written at hsome h
        obtain ⟨result', written⟩ := written
        cases result' with
        | error err =>
          obtain rfl := (Prod.mk.inj h).2
          exact hsome
        | ok _ =>
          obtain rfl := (Prod.mk.inj h).2
          exact hsome
    simp only [remaining, hreader, hitems, hwriter, List.length_cons]
    omega
  | nil =>
    obtain ⟨hreader, _, hwriter, _, hend⟩ := fillStep_nil codecs file hitems
    cases result with
    | ok _ =>
      rw [h] at hend
      exact .inr ⟨rfl, hend rfl⟩
    | error err =>
      left
      rw [h] at hreader hwriter
      dsimp only at hreader hwriter
      cases hw : file.writer with
      | none => simp [fillStep, hitems, finish, hw] at h
      | some w =>
        simp [remaining, hreader, hitems, hw, hwriter]

theorem fillUntil_remaining (codecs : Codecs Writer Schema Batch) (target : Option Nat)
    (file : EncodedDbFile Writer Schema Batch) :
    ∀ err next, fillUntil codecs target file = (.error err, next) →
      remaining next < remaining file := by
  refine fillUntil_induction codecs target (fun file => ∀ err next,
    fillUntil codecs target file = (.error err, next) → remaining next < remaining file) ?_ ?_ ?_
    file
  · intro file hwants err next h
    rw [fillUntil_done codecs target file hwants] at h
    exact absurd (Prod.mk.inj h).1 (by simp)
  · intro file err next hwants hpass err' next' h
    rw [fillUntil_eq, if_pos hwants, hpass] at h
    obtain rfl := (Prod.mk.inj h).2
    rcases fillStep_remaining codecs file next _ hpass with hlt | ⟨hok, _⟩
    · exact hlt
    · exact absurd hok (by simp)
  · intro file mid hwants hpass ih err next h
    rw [fillUntil_eq, if_pos hwants, hpass] at h
    dsimp only at h
    have hmid := ih err next h
    rcases fillStep_remaining codecs file mid _ hpass with hlt | ⟨_, heof⟩
    · omega
    · rw [fillUntil_done codecs target mid (wants_eof mid target heof)] at h
      exact absurd (Prod.mk.inj h).1 (by simp)

/-- Whatever failed before, enough seeks to the end bring the file to its end. -/
theorem seeks_reach_end (codecs : Codecs Writer Schema Batch)
    (file : EncodedDbFile Writer Schema Batch) (heof : file.eof = false) :
    ∃ calls, (Mealy.run (call codecs) file calls).2.eof = true := by
  induction hn : remaining file using Nat.strongRecOn generalizing file with
  | ind n ih =>
    rcases fillUntil_cases codecs none file heof with
      ⟨err, next, hfill, hnext, _⟩ | ⟨next, hfill, hdone, _⟩
    · have hlt := fillUntil_remaining codecs none file err next hfill
      obtain ⟨calls, hcalls⟩ := ih (remaining next) (hn ▸ hlt) next hnext rfl
      refine ⟨.seek (.End 0) :: calls, ?_⟩
      have hcall : (call codecs file (.seek (.End 0))).2 = next := by
        simp only [call, seek, hfill]
      rw [Mealy.run_cons, hcall]
      exact hcalls
    · have hend := eof_of_not_wants next hdone
      refine ⟨[.seek (.End 0)], ?_⟩
      rw [Mealy.run_cons, Mealy.run_nil]
      simp only [call, seek, hfill]
      cases offsetPosition next.emitted.length (Int64.toInt 0) with
      | error err => exact hend
      | ok position =>
        simp only [seekTo, fillUntil_done codecs _ next (wants_eof next _ hend)]
        exact hend

theorem offsetPosition_kind (base : Nat) (offset : Int) (err : IoError)
    (h : offsetPosition base offset = .error err) : err.kind = .InvalidInput := by
  unfold offsetPosition at h
  split_ifs at h
  all_goals
    obtain rfl := Except.error.inj h
    rfl

theorem seekTo_error_eof (codecs : Codecs Writer Schema Batch) (newPosition : Nat)
    (file next : EncodedDbFile Writer Schema Batch) (err : IoError)
    (h : file.seekTo codecs newPosition = (.error err, next)) : next.eof = false := by
  cases hfill : fillUntil codecs (some newPosition) file with
  | mk result mid =>
    cases result with
    | error err' =>
      simp only [seekTo, hfill, Prod.mk.injEq] at h
      rw [← h.2]
      exact fillUntil_error_eof codecs _ file err' mid hfill
    | ok _ => simp [seekTo, hfill] at h

/- A call that fails in the reader or the encoder does not end the file. -/
theorem failed_eof (codecs : Codecs Writer Schema Batch)
    (file next : EncodedDbFile Writer Schema Batch) (c : Call)
    (h : call codecs file c = (.failed .InvalidData, next)) : next.eof = false := by
  cases c with
  | read n =>
    by_cases hn : n = 0
    · simp [call, EncodedDbFile.read, hn] at h
    · cases hfill : fillUntil codecs (some (min (file.position + n) USIZE_MAX)) file with
      | mk result mid =>
        cases result with
        | error err =>
          simp only [call, EncodedDbFile.read, if_neg hn, hfill, Prod.mk.injEq] at h
          rw [← h.2]
          exact fillUntil_error_eof codecs _ file err mid hfill
        | ok _ =>
          simp only [call, EncodedDbFile.read, if_neg hn, hfill] at h
          split_ifs at h <;> simp at h
  | seek pos =>
    cases hseek : file.seek codecs pos with
    | mk result mid =>
      cases result with
      | ok position => simp [call, hseek] at h
      | error err =>
        simp only [call, hseek, Prod.mk.injEq, Answer.failed.injEq] at h
        obtain ⟨hkind, rfl⟩ := h
        cases pos with
        | Start position => exact seekTo_error_eof codecs _ file mid err hseek
        | Current offset =>
          cases hposition : offsetPosition file.position offset.toInt with
          | error err' =>
            simp only [seek, hposition, Prod.mk.injEq, Except.error.injEq] at hseek
            rw [← hseek.1, offsetPosition_kind _ _ _ hposition] at hkind
            exact absurd hkind (by decide)
          | ok position =>
            simp only [seek, hposition] at hseek
            exact seekTo_error_eof codecs _ file mid err hseek
        | End offset =>
          cases hfill : fillUntil codecs none file with
          | mk result' filled =>
            cases result' with
            | error err' =>
              simp only [seek, hfill, Prod.mk.injEq] at hseek
              rw [← hseek.2]
              exact fillUntil_error_eof codecs _ file err' filled hfill
            | ok _ =>
              cases hposition : offsetPosition filled.emitted.length offset.toInt with
              | error err' =>
                simp only [seek, hfill, hposition, Prod.mk.injEq, Except.error.injEq] at hseek
                rw [← hseek.1, offsetPosition_kind _ _ _ hposition] at hkind
                exact absurd hkind (by decide)
              | ok position =>
                simp only [seek, hfill, hposition] at hseek
                exact seekTo_error_eof codecs _ filled mid err hseek

theorem failedAfter_open (codecs : Codecs Writer Schema Batch) (reader : Reader Schema Batch)
    (format : DataFormat) (info : FileInfo) (file : EncodedDbFile Writer Schema Batch)
    (h : FailedAfter codecs reader format info file) : file.eof = false ∧ file.info = info := by
  obtain ⟨opened, calls, c, hnew, hcall⟩ := h
  have hopened : opened.info = info := by
    unfold EncodedDbFile.new at hnew
    cases hstart : formatEncoder codecs format reader.schema with
    | error err => simp [hstart, Except.map] at hnew
    | ok started =>
      simp only [hstart, Except.map, Except.ok.injEq] at hnew
      rw [← hnew]
  have hrun : (Mealy.run (call codecs) opened calls).2.info = info :=
    Mealy.run_invariant (I := fun f => f.info = info)
      (fun f a hf => (call_info codecs f a).trans hf) opened calls hopened
  have hinfo := call_info codecs (Mealy.run (call codecs) opened calls).2 c
  rw [hcall] at hinfo
  exact ⟨failed_eof codecs _ file c hcall, hinfo.trans hrun⟩

theorem relationDataFile_size_unknown (dialect : Dialect) (schema relation : Str)
    (kind : RelationKind) (format : DataFormat) :
    (relationDataFile dialect schema relation kind format).get "size_known".toList =
      some "false".toList := by
  unfold relationDataFile
  rw [FileInfo.insert_get_ne _ _ _ _ (by decide), FileInfo.insert_get_ne _ _ _ _ (by decide),
    FileInfo.insert_get_ne _ _ _ _ (by decide), FileInfo.insert_get_self]

/-- After any failure of the stream of an opened relation, a sequence of calls
never makes the file look complete and gets honest answers exactly if each call
wants no bytes past those emitted or runs into a further failure; and there is
always a sequence after which the file does look complete. -/
theorem failed_file_never_complete_iff (codecs : Codecs Writer Schema Batch)
    (reader : Reader Schema Batch) (format : DataFormat) (dialect : Dialect)
    (schema relation : Str) (kind : RelationKind) (file : EncodedDbFile Writer Schema Batch)
    (h : FailedAfter codecs reader format (relationDataFile dialect schema relation kind format)
      file) :
    (∀ calls, NeverComplete codecs file calls ↔ AllCovered codecs file calls) ∧
      ∃ calls, Complete (Mealy.run (call codecs) file calls).2 := by
  obtain ⟨heof, hinfo⟩ := failedAfter_open codecs reader format _ file h
  have hget : file.info.get "size_known".toList = some "false".toList := by
    rw [hinfo, relationDataFile_size_unknown]
  refine ⟨fun calls => neverComplete_iff codecs file calls heof hget, ?_⟩
  obtain ⟨calls, hend⟩ := seeks_reach_end codecs file heof
  exact ⟨calls, .inl (by simp [size, hend])⟩

def brokenReader : Reader Str (List Str) :=
  ⟨"id".toList, [.ok ["1".toList], .error "connection lost".toList], false⟩

def mainUsersInfo : FileInfo :=
  relationDataFile .Sqlite "main".toList "users".toList .Table .Csv

def brokenFile : EncodedDbFile (Str × Bool) Str (List Str) :=
  ⟨⟨"id".toList, [], false⟩, some ("id".toList, true), [], Utf8.encode "id\n1\n".toList, 0,
    mainUsersInfo, false⟩

theorem brokenFile_failed : FailedAfter csvCodecs brokenReader .Csv mainUsersInfo brokenFile :=
  ⟨_, [], .read 100, rfl, rfl⟩

/-- The failed CSV file under calls that stay inside what was emitted. -/
theorem failed_csv_file_never_complete :
    NeverComplete csvCodecs brokenFile [.read 3, .seek (.Start 0), .read 5] := by
  have hiff := (failed_file_never_complete_iff csvCodecs brokenReader .Csv .Sqlite "main".toList
    "users".toList .Table brokenFile brokenFile_failed).1
  refine (hiff _).mpr ⟨fun h => ?_, fun h => ?_, fun h => ?_, trivial⟩
  · exact absurd h.2 (by decide)
  · exact absurd (show 5 < 0 from h) (by decide)
  · exact absurd h.2 (by decide)

/-- After the error a second read gets the one batch and a third one the end; the
size is then known. -/
theorem failed_csv_file_looks_complete :
    ∃ file, FailedAfter csvCodecs brokenReader .Csv mainUsersInfo file ∧
      (Mealy.run (call csvCodecs) file [.read 100, .read 100]).1 =
        [.bytes (Utf8.encode "id\n1\n".toList), .bytes []] ∧
      (Mealy.run (call csvCodecs) file [.read 100, .read 100]).2.size = some 5 ∧
      ¬ NeverComplete csvCodecs file [.read 100, .read 100] := by
  refine ⟨brokenFile, brokenFile_failed, by decide, by decide, fun h => ?_⟩
  have hanswer : (call csvCodecs brokenFile (.read 100)).1 =
      .bytes (Utf8.encode "id\n1\n".toList) := by decide
  obtain ⟨kind, hkind⟩ := h.2.1.2 ⟨by decide, by decide⟩
  rw [hanswer] at hkind
  exact absurd hkind (by simp)

end FsspecDb.Encoded
