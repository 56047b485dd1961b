import FsspecDb.Encoded.Cursor

/-!
# The file after a failure of the stream

A failure of the reader or of the encoder leaves `eof` unset and nothing else
behind: the next call that wants bytes goes on with the reader. What such a file
shows stays incomplete exactly as long as every call either wants no further
bytes or fails again.
-/

namespace FsspecDb.Encoded
open EncodedDbFile

variable {Writer Schema Batch : Type}

/-- The call needs bytes past those already emitted. -/
def NeedsMore (file : EncodedDbFile Writer Schema Batch) : Call → Prop
  | .read n => n ≠ 0 ∧ file.emitted.length < file.position + n
  | .seek (.Start position) => file.emitted.length < position.toNat
  | .seek (.Current offset) => ∃ position,
    offsetPosition file.position offset.toInt = .ok position ∧ file.emitted.length < position
  | .seek (.End _) => True

/-- The reader yields an error, or the encoder fails, before `target` bytes were
emitted (`none`: before the end); `pending` bytes are in the sink. -/
def FailsBefore (codecs : Codecs Writer Schema Batch) (target : Option Nat) :
    Option Writer → List (Except Str Batch) → (emitted pending : Nat) → Prop
  | writer, [], emitted, _ => (∀ t, target = some t → emitted < t) ∧
    ∃ w, writer = some w ∧ (codecs.finish w).2 ≠ none
  | _, .error _ :: _, emitted, _ => ∀ t, target = some t → emitted < t
  | none, .ok _ :: _, emitted, _ => ∀ t, target = some t → emitted < t
  | some w, .ok batch :: rest, emitted, pending => (∀ t, target = some t → emitted < t) ∧
    ((codecs.writeBatch w batch).2.2 ≠ none ∨
      FailsBefore codecs target (some (codecs.writeBatch w batch).2.1) rest
        (emitted + pending + (codecs.writeBatch w batch).1.length) 0)

def FailsAgain (codecs : Codecs Writer Schema Batch) (file : EncodedDbFile Writer Schema Batch)
    (c : Call) : Prop :=
  let failsBefore (target : Option Nat) : Prop :=
    FailsBefore codecs target file.writer file.reader.items file.emitted.length file.sink.length
  match c with
  | .read n => failsBefore (some (min (file.position + n) USIZE_MAX))
  | .seek (.Start position) => failsBefore (some position.toNat)
  | .seek (.Current offset) => ∃ position,
    offsetPosition file.position offset.toInt = .ok position ∧ failsBefore (some position)
  | .seek (.End _) => failsBefore none

def Covered (codecs : Codecs Writer Schema Batch) (file : EncodedDbFile Writer Schema Batch)
    (c : Call) : Prop :=
  NeedsMore file c → FailsAgain codecs file c

def AllCovered (codecs : Codecs Writer Schema Batch) :
    EncodedDbFile Writer Schema Batch → List Call → Prop
  | _, [] => True
  | file, c :: calls => Covered codecs file c ∧ AllCovered codecs (call codecs file c).2 calls

/-- The file looks complete: its size is known, or it says so. -/
def Complete (file : EncodedDbFile Writer Schema Batch) : Prop :=
  file.size ≠ none ∨ file.fileInfo.get "size_known".toList = some "true".toList

/-- No read of a non-empty buffer reports the end, and a call that needs bytes
past those emitted fails. -/
def HonestAnswer (file : EncodedDbFile Writer Schema Batch) (c : Call) (answer : Answer) : Prop :=
  (∀ n, c = .read n → n ≠ 0 → answer ≠ .bytes []) ∧
    (NeedsMore file c → ∃ kind, answer = .failed kind)

/-- Along the calls the file never looks complete and every answer is honest. -/
def NeverComplete (codecs : Codecs Writer Schema Batch) :
    EncodedDbFile Writer Schema Batch → List Call → Prop
  | file, [] => ¬ Complete file
  | file, c :: calls => ¬ Complete file ∧ HonestAnswer file c (call codecs file c).1 ∧
    NeverComplete codecs (call codecs file c).2 calls

/-- The file right after a call that failed in the reader or the encoder. -/
def FailedAfter (codecs : Codecs Writer Schema Batch) (reader : Reader Schema Batch)
    (format : DataFormat) (info : FileInfo) (file : EncodedDbFile Writer Schema Batch) : Prop :=
  ∃ opened calls c, EncodedDbFile.new codecs reader format info = .ok opened ∧
    call codecs (Mealy.run (call codecs) opened calls).2 c = (.failed .InvalidData, file)

/-! ### One filling -/

/- Filling fails exactly if the reader or the encoder fails on the way. -/
theorem fillUntil_error_iff (codecs : Codecs Writer Schema Batch) (target : Option Nat)
    (file : EncodedDbFile Writer Schema Batch) (heof : file.eof = false) :
    (∃ err next, fillUntil codecs target file = (.error err, next)) ↔
      FailsBefore codecs target file.writer file.reader.items file.emitted.length
        file.sink.length := by
  have hshort (file : EncodedDbFile Writer Schema Batch) (heof : file.eof = false) :
      file.wants target = true ↔ ∀ t, target = some t → file.emitted.length < t :=
    (wants_eq_true file target).trans (and_iff_right heof)
  induction hitems : file.reader.items generalizing file with
  | nil =>
    rw [fillUntil, hitems, fillLoop]
    by_cases hwants : file.wants target = true
    · have htarget := (hshort file heof).mp hwants
      rw [if_pos hwants]
      cases hwriter : file.writer with
      | none => simp [fillStep, hitems, finish, hwriter, FailsBefore]
      | some w =>
        cases hfinish : codecs.finish w with
        | mk bytes err =>
          cases err with
          | none => simp [fillStep, hitems, finish, hwriter, hfinish, FailsBefore]
          | some err =>
            simp [fillStep, hitems, finish, hwriter, hfinish, FailsBefore]
            exact htarget
    · have htarget := mt (hshort file heof).mpr hwants
      rw [if_neg hwants]
      simp only [Prod.mk.injEq, reduceCtorEq, false_and, exists_false, false_iff]
      exact fun h => htarget h.1
  | cons item rest ih =>
    rw [fillUntil, hitems, fillLoop]
    by_cases hwants : file.wants target = true
    · have htarget := (hshort file heof).mp hwants
      rw [if_pos hwants]
      cases item with
      | error err =>
        simp only [fillStep, hitems, FailsBefore]
        exact ⟨fun _ => htarget, fun _ => ⟨_, _, rfl⟩⟩
      | ok batch =>
        cases hwriter : file.writer with
        | none =>
          simp only [fillStep, hitems, writeBatch, hwriter, FailsBefore]
          exact ⟨fun _ => htarget, fun _ => ⟨_, _, rfl⟩⟩
        | some w =>
          cases hwrite : codecs.writeBatch w batch with
          | mk bytes written =>
            obtain ⟨w', err⟩ := written
            cases err with
            | some err =>
              simp only [fillStep, hitems, writeBatch, hwriter, hwrite, FailsBefore]
              exact ⟨fun _ => ⟨htarget, .inl (by simp)⟩, fun _ => ⟨_, _, rfl⟩⟩
            | none =>
              simp only [fillStep, hitems, writeBatch, hwriter, hwrite, FailsBefore, drainSink]
              have hnext := ih ⟨{ file.reader with items := rest }, some w', [],
                file.emitted ++ (file.sink ++ bytes), file.position, file.info, file.eof⟩ heof rfl
              rw [fillUntil] at hnext
              refine hnext.trans ?_
              simp only [List.length_append, List.length_nil, Nat.add_assoc, ne_eq,
                not_true_eq_false, false_or]
              exact (and_iff_right htarget).symm
    · have htarget := mt (hshort file heof).mpr hwants
      rw [if_neg hwants]
      simp only [Prod.mk.injEq, reduceCtorEq, false_and, exists_false, false_iff]
      cases item with
      | error err => exact htarget
      | ok batch =>
        cases file.writer with
        | none => exact htarget
        | some w => exact fun h => htarget h.1

/- A filling that fails leaves the end unset. -/
theorem fillUntil_error_eof (codecs : Codecs Writer Schema Batch) (target : Option Nat)
    (file : EncodedDbFile Writer Schema Batch) :
    ∀ err next, fillUntil codecs target file = (.error err, next) → next.eof = false := by
  refine fillUntil_induction codecs target (fun file => ∀ err next,
    fillUntil codecs target file = (.error err, next) → next.eof = false) ?_ ?_ ?_ file
  · intro file hwants err next h
    rw [fillUntil_done codecs target file hwants] at h
    exact absurd (Prod.mk.inj h).1 (by simp)
  · intro file err next hwants hpass err' next' h
    have heof := ((wants_eq_true file target).mp hwants).1
    rw [fillUntil_eq, if_pos hwants, hpass] at h
    obtain rfl := (Prod.mk.inj h).2
    cases hitems : file.reader.items with
    | nil =>
      have hkeep := (fillStep_nil codecs file hitems).2.2.2.1 err (by rw [hpass])
      rw [hpass] at hkeep
      exact hkeep.trans heof
    | cons item rest =>
      have hkeep := (fillStep_cons codecs file item rest hitems).2.2
      rw [hpass] at hkeep
      exact hkeep.trans heof
  · intro file mid hwants hpass ih err next h
    rw [fillUntil_eq, if_pos hwants, hpass] at h
    exact ih err next h

/- The two ways a filling ends. -/
theorem fillUntil_cases (codecs : Codecs Writer Schema Batch) (target : Option Nat)
    (file : EncodedDbFile Writer Schema Batch) (heof : file.eof = false) :
    (∃ err next, fillUntil codecs target file = (.error err, next) ∧ next.eof = false ∧
      FailsBefore codecs target file.writer file.reader.items file.emitted.length
        file.sink.length) ∨
    ∃ next, fillUntil codecs target file = (.ok (), next) ∧ next.wants target = false ∧
      ¬ FailsBefore codecs target file.writer file.reader.items file.emitted.length
        file.sink.length := by
  have hiff := fillUntil_error_iff codecs target file heof
  cases hfill : fillUntil codecs target file with
  | mk result next =>
    cases result with
    | error err =>
      exact .inl ⟨err, next, rfl, fillUntil_error_eof codecs target file err next hfill,
        hiff.mp ⟨err, next, hfill⟩⟩
    | ok _ =>
      have hdone := (fillUntil_frame codecs target file).2
      rw [hfill] at hdone
      refine .inr ⟨next, rfl, hdone rfl, fun h => ?_⟩
      obtain ⟨err, next', herr⟩ := hiff.mpr h
      rw [hfill] at herr
      exact absurd (Prod.mk.inj herr).1 (by simp)

/-! ### One call -/

/- What one call has to do with the end of the file. -/
def Honest (codecs : Codecs Writer Schema Batch) (file : EncodedDbFile Writer Schema Batch)
    (c : Call) : Prop :=
  HonestAnswer file c (call codecs file c).1 ∧ (call codecs file c).2.eof = false

theorem honest_read_iff (codecs : Codecs Writer Schema Batch) (n : Nat)
    (file : EncodedDbFile Writer Schema Batch) (heof : file.eof = false) :
    Honest codecs file (.read n) ↔ Covered codecs file (.read n) := by
  by_cases hn : n = 0
  · subst hn
    have hcall : call codecs file (.read 0) = (.bytes [], file) := by
      simp only [call, EncodedDbFile.read, if_true]
    simp only [Honest, hcall, HonestAnswer, Covered, NeedsMore]
    refine ⟨fun _ h => absurd rfl h.1,
      fun _ => ⟨⟨fun m hm hne => ?_, fun h => absurd rfl h.1⟩, heof⟩⟩
    exact absurd (Call.read.inj hm).symm hne
  · by_cases hmore : file.emitted.length < file.position + n
    · have hneeds : NeedsMore file (.read n) := ⟨hn, hmore⟩
      rcases fillUntil_cases codecs (some (min (file.position + n) USIZE_MAX)) file heof with
        ⟨err, next, hfill, hnext, hfails⟩ | ⟨next, hfill, _, hfails⟩
      · have hcall : call codecs file (.read n) = (.failed err.kind, next) := by
          simp only [call, EncodedDbFile.read, if_neg hn, hfill]
        simp only [Honest, hcall, HonestAnswer]
        exact ⟨fun _ _ => hfails, fun _ => ⟨⟨fun _ _ _ => by simp, fun _ => ⟨_, rfl⟩⟩, hnext⟩⟩
      · have hcall : ∃ data next', call codecs file (.read n) = (.bytes data, next') := by
          simp only [call, EncodedDbFile.read, if_neg hn, hfill]
          split_ifs
          · exact ⟨_, _, rfl⟩
          · exact ⟨_, _, rfl⟩
        obtain ⟨data, next', hcall⟩ := hcall
        simp only [Honest, hcall, HonestAnswer]
        refine ⟨fun h => ?_, fun h => absurd (h hneeds) hfails⟩
        obtain ⟨kind, hkind⟩ := h.1.2 hneeds
        exact absurd hkind (by simp)
    · have hwants : file.wants (some (min (file.position + n) USIZE_MAX)) = false := by
        rw [Bool.eq_false_iff]
        intro h
        have hlt := ((wants_eq_true file _).mp h).2 _ rfl
        omega
      have hcall : call codecs file (.read n) =
          (.bytes ((file.emitted.drop file.position).take
            (min n (file.emitted.length - file.position))),
            { file with
              position := file.position + min n (file.emitted.length - file.position) }) := by
        have hstart : ¬ file.emitted.length ≤ file.position := by omega
        simp only [call, EncodedDbFile.read, if_neg hn, fillUntil_done codecs _ file hwants,
          if_neg hstart]
      simp only [Honest, hcall, HonestAnswer, Covered]
      refine ⟨fun _ h => absurd h.2 hmore,
        fun _ => ⟨⟨fun m hm _ h => ?_, fun h => absurd h.2 hmore⟩, heof⟩⟩
      have hlen := congrArg List.length (Answer.bytes.inj h)
      simp only [List.length_take, List.length_drop, List.length_nil] at hlen
      omega

theorem honest_seekTo_iff (codecs : Codecs Writer Schema Batch) (pos : SeekFrom) (newPosition : Nat)
    (file : EncodedDbFile Writer Schema Batch) (heof : file.eof = false)
    (hseek : file.seek codecs pos = file.seekTo codecs newPosition)
    (hneeds : NeedsMore file (.seek pos) ↔ file.emitted.length < newPosition)
    (hfails : FailsAgain codecs file (.seek pos) ↔ FailsBefore codecs (some newPosition) file.writer
      file.reader.items file.emitted.length file.sink.length) :
    Honest codecs file (.seek pos) ↔ Covered codecs file (.seek pos) := by
  rw [Covered, hneeds, hfails]
  simp only [Honest, HonestAnswer, hneeds, reduceCtorEq, false_implies, implies_true, true_and]
  rcases fillUntil_cases codecs (some newPosition) file heof with
    ⟨err, next, hfill, hnext, hbefore⟩ | ⟨next, hfill, hdone, hbefore⟩
  · have hcall : call codecs file (.seek pos) = (.failed err.kind, next) := by
      simp only [call, hseek, seekTo, hfill]
    rw [hcall]
    exact ⟨fun _ _ => hbefore, fun _ => ⟨fun _ => ⟨_, rfl⟩, hnext⟩⟩
  · have hcall : call codecs file (.seek pos) =
        (.position newPosition, { next with position := newPosition }) := by
      simp only [call, hseek, seekTo, hfill]
    rw [hcall]
    by_cases hmore : file.emitted.length < newPosition
    · refine ⟨fun h => ?_, fun h => absurd (h hmore) hbefore⟩
      obtain ⟨kind, hkind⟩ := h.1 hmore
      exact absurd hkind (by simp)
    · have hwants : file.wants (some newPosition) = false := by
        rw [Bool.eq_false_iff]
        exact fun h => hmore (((wants_eq_true file _).mp h).2 _ rfl)
      rw [fillUntil_done codecs _ file hwants] at hfill
      obtain rfl := (Prod.mk.inj hfill).2
      exact ⟨fun _ h => absurd h hmore, fun _ => ⟨fun h => absurd h hmore, heof⟩⟩

/- An offset from the end always fills to the end first. -/
theorem honest_seekEnd_iff (codecs : Codecs Writer Schema Batch) (offset : Int64)
    (file : EncodedDbFile Writer Schema Batch) (heof : file.eof = false) :
    Honest codecs file (.seek (.End offset)) ↔ Covered codecs file (.seek (.End offset)) := by
  rcases fillUntil_cases codecs none file heof with
    ⟨err, next, hfill, hnext, hbefore⟩ | ⟨next, hfill, hdone, hbefore⟩
  · have hcall : call codecs file (.seek (.End offset)) = (.failed err.kind, next) := by
      simp only [call, seek, hfill]
    simp only [Honest, hcall, HonestAnswer]
    exact ⟨fun _ _ => hbefore, fun _ => ⟨⟨fun _ h => absurd h (by simp), fun _ => ⟨_, rfl⟩⟩, hnext⟩⟩
  · have hend := eof_of_not_wants next hdone
    have hcall : (call codecs file (.seek (.End offset))).2.eof = true := by
      simp only [call, seek, hfill]
      cases offsetPosition next.emitted.length offset.toInt with
      | error err => exact hend
      | ok position =>
        simp only [seekTo, fillUntil_done codecs _ next (wants_eof next _ hend)]
        exact hend
    refine ⟨fun h => ?_, fun h => absurd (h trivial) hbefore⟩
    exact absurd (hcall.symm.trans h.2) (by simp)

/-- A call on a file that is not at its end keeps it so and answers honestly,
exactly if it wants no further bytes or fails again. -/
theorem honest_iff_covered (codecs : Codecs Writer Schema Batch)
    (file : EncodedDbFile Writer Schema Batch) (c : Call) (heof : file.eof = false) :
    Honest codecs file c ↔ Covered codecs file c := by
  cases c with
  | read n => exact honest_read_iff codecs n file heof
  | seek pos =>
    cases pos with
    | Start position =>
      exact honest_seekTo_iff codecs _ position.toNat file heof rfl Iff.rfl Iff.rfl
    | End offset => exact honest_seekEnd_iff codecs offset file heof
    | Current offset =>
      cases hposition : offsetPosition file.position offset.toInt with
      | ok position =>
        apply honest_seekTo_iff codecs _ position file heof
        · simp only [seek, hposition]
        · simp [NeedsMore, hposition]
        · simp [FailsAgain, hposition]
      | error err =>
        have hcall : call codecs file (.seek (.Current offset)) = (.failed err.kind, file) := by
          simp only [call, seek, hposition]
        simp only [Honest, hcall, HonestAnswer, Covered, NeedsMore, hposition, reduceCtorEq,
          false_and, exists_false, false_implies, implies_true, true_and]
        exact ⟨fun _ => trivial, fun _ => heof⟩

end FsspecDb.Encoded
