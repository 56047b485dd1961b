import FsspecDb.Encoded.Cursor
import FsspecDb.Lib.Reading

/-!
# A file that was read to its end

If reading a fresh file to the end gave some bytes without an error, they are the
complete encoding: the file fills to them. Shown from the last read backwards.
-/

namespace FsspecDb.Encoded
open EncodedDbFile

variable {Writer Schema Batch : Type}

/- What holds of a file as long as no call on it failed. -/
structure Sound (file : EncodedDbFile Writer Schema Batch) : Prop where
  sink : file.sink = []
  ended : file.eof = file.reader.ended
  writer : file.eof = false → file.writer.isSome
  position : file.position ≤ file.emitted.length

theorem writeBatch_ok (codecs : Codecs Writer Schema Batch) (batch : Batch) (writer : Writer)
    (file next : EncodedDbFile Writer Schema Batch) (hwriter : file.writer = some writer)
    (h : writeBatch codecs batch file = (.ok (), next)) :
    ∃ bytes writer', codecs.writeBatch writer batch = (bytes, writer', none) ∧
      next = { file with writer := some writer', sink := file.sink ++ bytes } := by
  cases hcodec : codecs.writeBatch writer batch with
  | mk bytes result =>
    obtain ⟨writer', err⟩ := result
    simp only [writeBatch, hwriter, hcodec] at h
    cases err with
    | some err => cases h
    | none => exact ⟨bytes, writer', rfl, (Prod.mk.inj h).2.symm⟩

theorem finish_ok (codecs : Codecs Writer Schema Batch) (writer : Writer)
    (file next : EncodedDbFile Writer Schema Batch) (hwriter : file.writer = some writer)
    (h : finish codecs file = (.ok (), next)) :
    ∃ bytes, codecs.finish writer = (bytes, none) ∧
      next = { file with writer := none, sink := file.sink ++ bytes } := by
  cases hcodec : codecs.finish writer with
  | mk bytes err =>
    simp only [finish, hwriter, hcodec] at h
    cases err with
    | some err => cases h
    | none => exact ⟨bytes, rfl, (Prod.mk.inj h).2.symm⟩

/- One pass backwards: what the file fills to after it, it filled to before. -/
theorem fillStep_backwards (codecs : Codecs Writer Schema Batch)
    (file next : EncodedDbFile Writer Schema Batch) (hsound : Sound file)
    (heof : file.eof = false) (h : fillStep codecs file = (.ok (), next)) :
    Sound next ∧ ∀ bytes, Fills codecs bytes next → Fills codecs bytes file := by
  have hnotEnd : ¬ file.eof = true := by rw [heof]; exact Bool.false_ne_true
  obtain ⟨writer, hwriter⟩ := Option.isSome_iff_exists.mp (hsound.writer heof)
  unfold fillStep at h
  cases hitems : file.reader.items with
  | nil =>
    rw [hitems] at h
    dsimp only at h
    cases hfinish : finish codecs { file with reader := { file.reader with ended := true } } with
    | mk result after =>
      rw [hfinish] at h
      cases result with
      | error err => cases h
      | ok _ =>
        obtain ⟨bytes, hcodec, hafter⟩ := finish_ok codecs writer _ after (by exact hwriter) hfinish
        have hnext := (Prod.mk.inj h).2.symm
        subst hafter
        subst hnext
        refine ⟨⟨rfl, rfl, fun h => absurd h (Bool.false_ne_true ∘ Eq.symm), ?_⟩, ?_⟩
        · simp only [drainSink, List.length_append]
          have hpos := hsound.position
          omega
        · intro all hfills
          obtain ⟨_, _, hrest⟩ := hfills
          have hall : file.emitted ++ (file.sink ++ bytes) = all := hrest
          rw [hsound.sink, List.nil_append] at hall
          refine ⟨hsound.sink, hsound.ended, ?_⟩
          rw [if_neg hnotEnd]
          exact ⟨writer, [], bytes, hwriter, hitems, by rw [encodeRest, hcodec], hall.symm⟩
  | cons item rest =>
    cases item with
    | error err =>
      rw [hitems] at h
      cases h
    | ok batch =>
      rw [hitems] at h
      dsimp only at h
      cases hwrite : writeBatch codecs batch
          { file with reader := { file.reader with items := rest } } with
      | mk result after =>
        rw [hwrite] at h
        cases result with
        | error err => cases h
        | ok _ =>
          obtain ⟨bytes, writer', hcodec, hafter⟩ :=
            writeBatch_ok codecs batch writer _ after (by exact hwriter) hwrite
          have hnext := (Prod.mk.inj h).2.symm
          subst hafter
          subst hnext
          refine ⟨⟨rfl, hsound.ended, fun _ => rfl, ?_⟩, ?_⟩
          · simp only [drainSink, List.length_append]
            have hpos := hsound.position
            omega
          · intro all hfills
            obtain ⟨_, _, hrest⟩ := hfills
            have hopen : ∃ w batches tail, some writer' = some w ∧
                rest = batches.map .ok ∧ encodeRest codecs w batches = .ok tail ∧
                all = file.emitted ++ (file.sink ++ bytes) ++ tail := by
              simpa only [drainSink, heof, Bool.false_eq_true, if_false] using hrest
            obtain ⟨w, batches, tail, hw, hbatches, hencode, hall⟩ := hopen
            obtain rfl := Option.some.inj hw
            refine ⟨hsound.sink, hsound.ended, ?_⟩
            rw [if_neg hnotEnd]
            refine ⟨writer, batch :: batches, bytes ++ tail, hwriter, ?_, ?_, ?_⟩
            · rw [hitems, hbatches, List.map_cons]
            · rw [encodeRest, hcodec]
              simp only [hencode, Except.map]
            · rw [hall, hsound.sink, List.nil_append, List.append_assoc]

theorem fillUntil_backwards (codecs : Codecs Writer Schema Batch) (target : Option Nat)
    (file next : EncodedDbFile Writer Schema Batch) (hsound : Sound file)
    (h : fillUntil codecs target file = (.ok (), next)) :
    Sound next ∧ ∀ bytes, Fills codecs bytes next → Fills codecs bytes file := by
  revert hsound h
  refine fillUntil_induction codecs target (fun file => Sound file →
    fillUntil codecs target file = (.ok (), next) →
    Sound next ∧ ∀ bytes, Fills codecs bytes next → Fills codecs bytes file) ?_ ?_ ?_ file
  · intro file hwants hsound h
    rw [fillUntil_done codecs target file hwants] at h
    obtain rfl := (Prod.mk.inj h).2
    exact ⟨hsound, fun _ h => h⟩
  · intro file err next' hwants hpass _ h
    rw [fillUntil_eq, if_pos hwants, hpass] at h
    cases h
  · intro file mid hwants hpass ih hsound h
    rw [fillUntil_eq, if_pos hwants, hpass] at h
    have heof := ((wants_eq_true file target).mp hwants).1
    obtain ⟨hmid, hback⟩ := fillStep_backwards codecs file mid hsound heof hpass
    obtain ⟨hnext, hlater⟩ := ih hmid h
    exact ⟨hnext, fun bytes hbytes => hback bytes (hlater bytes hbytes)⟩

/- What a read that did not fail found. -/
theorem read_ok (codecs : Codecs Writer Schema Batch) (n : Nat) (data : List Byte)
    (file next : EncodedDbFile Writer Schema Batch) (hn : 0 < n)
    (h : file.read codecs n = (.ok data, next)) :
    ∃ filled, fillUntil codecs (some (min (file.position + n) USIZE_MAX)) file = (.ok (), filled) ∧
      (filled.emitted.length ≤ file.position ∧ data = [] ∧ next = filled ∨
        file.position < filled.emitted.length ∧
          data = (filled.emitted.drop file.position).take
            (min n (filled.emitted.length - file.position)) ∧
          next = { filled with
            position := filled.position + min n (filled.emitted.length - file.position) }) := by
  rw [EncodedDbFile.read, if_neg (by omega)] at h
  dsimp only at h
  cases hfill : fillUntil codecs (some (min (file.position + n) USIZE_MAX)) file with
  | mk result filled =>
    rw [hfill] at h
    cases result with
    | error err => cases h
    | ok _ =>
      refine ⟨filled, rfl, ?_⟩
      dsimp only at h
      by_cases hpast : filled.emitted.length ≤ file.position
      · rw [if_pos hpast] at h
        obtain ⟨hdata, hnext⟩ := Prod.mk.inj h
        exact .inl ⟨hpast, (Except.ok.inj hdata).symm, hnext.symm⟩
      · rw [if_neg hpast] at h
        obtain ⟨hdata, hnext⟩ := Prod.mk.inj h
        exact .inr ⟨by omega, (Except.ok.inj hdata).symm, hnext.symm⟩

/- What was read so far and what reading to the end still gives is what the file fills to. -/
def FillsWith (codecs : Codecs Writer Schema Batch) (file : EncodedDbFile Writer Schema Batch)
    (rest : List Byte) : Prop :=
  Sound file → file.position + rest.length < 2 ^ 63 →
    Fills codecs (file.emitted.take file.position ++ rest) file

theorem fillsWith_last (codecs : Codecs Writer Schema Batch) (n : Nat)
    (file next : EncodedDbFile Writer Schema Batch) (hn : 0 < n)
    (h : file.read codecs n = (.ok [], next)) : FillsWith codecs file [] := by
  intro hsound hbound
  rw [List.length_nil, Nat.add_zero] at hbound
  rw [List.append_nil]
  obtain ⟨filled, hfill, hcases⟩ := read_ok codecs n [] file next hn h
  have hshort : filled.emitted.length ≤ file.position := by
    rcases hcases with ⟨hshort, _⟩ | ⟨hlong, hdata, _⟩
    · exact hshort
    · have hlen := congrArg List.length hdata
      rw [List.length_take, List.length_drop, List.length_nil] at hlen
      omega
  obtain ⟨hfilled, hback⟩ := fillUntil_backwards codecs _ file filled hsound hfill
  have hdone := (fillUntil_frame codecs (some (min (file.position + n) USIZE_MAX)) file).2
  rw [hfill] at hdone
  have heof : filled.eof = true := by
    cases heof : filled.eof with
    | true => rfl
    | false =>
      have hwants := (wants_eq_true filled (some (min (file.position + n) USIZE_MAX))).mpr
        ⟨heof, fun t ht => by
          obtain rfl := Option.some.inj ht
          simp only [USIZE_MAX]
          omega⟩
      rw [hdone rfl] at hwants
      exact hwants
  have hall : Fills codecs filled.emitted file := by
    apply hback
    refine ⟨hfilled.sink, hfilled.ended, ?_⟩
    rw [if_pos heof]
  obtain ⟨tail, htail, _⟩ := fills_prefix codecs filled.emitted file hall
  have hlen := congrArg List.length htail
  rw [List.length_append] at hlen
  have hpos := hsound.position
  have hnil : tail = [] := List.length_eq_zero_iff.mp (by omega)
  rw [hnil, List.append_nil] at htail
  rw [List.take_of_length_le (by omega), ← htail]
  exact hall

theorem fillsWith_more (codecs : Codecs Writer Schema Batch) (n : Nat) (data rest : List Byte)
    (file next : EncodedDbFile Writer Schema Batch) (hdata : data ≠ [])
    (h : file.read codecs n = (.ok data, next)) (ih : FillsWith codecs next rest) :
    FillsWith codecs file (data ++ rest) := by
  intro hsound hbound
  rw [List.length_append] at hbound
  have hn : 0 < n := by
    apply Nat.pos_of_ne_zero
    intro hzero
    rw [EncodedDbFile.read, if_pos hzero] at h
    exact hdata (Except.ok.inj (Prod.mk.inj h).1).symm
  obtain ⟨filled, hfill, hcases⟩ := read_ok codecs n data file next hn h
  obtain ⟨hfilled, hback⟩ := fillUntil_backwards codecs _ file filled hsound hfill
  have hposition : filled.position = file.position := by
    have hframe := (fillUntil_frame codecs (some (min (file.position + n) USIZE_MAX)) file).1.1
    rwa [hfill] at hframe
  rcases hcases with ⟨_, hempty, _⟩ | ⟨hlong, hwindow, hnext⟩
  · exact absurd hempty hdata
  · subst hnext
    have hcount : data.length = min n (filled.emitted.length - file.position) := by
      rw [hwindow, List.length_take, List.length_drop]
      omega
    have hnextSound : Sound { filled with
        position := filled.position + min n (filled.emitted.length - file.position) } := by
      refine ⟨hfilled.sink, hfilled.ended, hfilled.writer, ?_⟩
      dsimp only
      omega
    have hfills := ih hnextSound (by dsimp only; omega)
    dsimp only at hfills
    rw [hposition, ← hcount] at hfills
    have hbefore : Fills codecs (filled.emitted.take (file.position + data.length) ++ rest) file :=
      hback _ hfills
    have hsplit : filled.emitted.take (file.position + data.length) =
        filled.emitted.take file.position ++ data := by
      rw [List.take_add, hcount, ← hwindow]
    rw [hsplit, List.append_assoc] at hbefore
    -- both files have emitted a beginning of the same bytes
    obtain ⟨tail, htail, _⟩ := fills_prefix codecs _ file hbefore
    have hpos := hsound.position
    have hsame : filled.emitted.take file.position = file.emitted.take file.position := by
      have hleft := congrArg (List.take file.position) htail
      rw [List.take_append_of_le_length (by rw [List.length_take]; omega), List.take_take,
        Nat.min_self, List.take_append_of_le_length hpos] at hleft
      exact hleft
    rwa [hsame] at hbefore

/-- A fresh file that could be read to its end stands for a cursor over what was read. -/
theorem represents_of_readToEnd (codecs : Codecs Writer Schema Batch) (format : DataFormat)
    (schema : Schema) (items : List (Except Str Batch)) (info : FileInfo)
    (file : EncodedDbFile Writer Schema Batch) (bytes : List Byte) (hlen : bytes.length < 2 ^ 63)
    (hnew : EncodedDbFile.new codecs ⟨schema, items, false⟩ format info = .ok file)
    (sizes : Nat → ℕ+) (fuel i : Nat)
    (h : Reading.readToEnd (fun n (file : EncodedDbFile Writer Schema Batch) =>
      file.read codecs n) sizes fuel i file = some (.ok bytes)) :
    Represents codecs file (Cursor.new bytes hlen) := by
  have hfresh : Sound file ∧ file.position = 0 := by
    unfold EncodedDbFile.new at hnew
    cases hstart : formatEncoder codecs format schema with
    | error err =>
      rw [hstart] at hnew
      cases hnew
    | ok started =>
      rw [hstart] at hnew
      obtain rfl := Except.ok.inj hnew
      exact ⟨⟨rfl, rfl, fun _ => rfl, Nat.zero_le _⟩, rfl⟩
  obtain ⟨hsound, hposition⟩ := hfresh
  have hfills := Reading.readToEnd_ok
    (fun n file next hn hread => fillsWith_last codecs n file next hn hread)
    (fun n file next data rest hdata hread ih =>
      fillsWith_more codecs n data rest file next hdata hread ih)
    sizes fuel i file bytes h hsound (by omega)
  rw [hposition, List.take_zero, List.nil_append] at hfills
  exact ⟨hfills, hposition, by simp [Cursor.new]⟩

end FsspecDb.Encoded
