import FsspecDb.Encoded.File

/-!
# The loop of `fill_until`

The equation of the loop, what one pass leaves alone, and when the file is at
its end afterwards.
-/

namespace FsspecDb.Encoded.EncodedDbFile

variable {Writer Schema Batch : Type}

theorem wants_eof (file : EncodedDbFile Writer Schema Batch) (target : Option Nat)
    (h : file.eof = true) : file.wants target = false := by
  rw [wants, h, Bool.not_true, Bool.false_and]

theorem wants_eq_true (file : EncodedDbFile Writer Schema Batch) (target : Option Nat) :
    file.wants target = true ↔
      file.eof = false ∧ ∀ t, target = some t → file.emitted.length < t := by
  cases target <;> cases h : file.eof <;> simp [wants, h]

theorem eof_of_not_wants (file : EncodedDbFile Writer Schema Batch)
    (h : file.wants none = false) : file.eof = true := by
  simpa [wants] using h

/-- The parts of the file that filling it never changes. -/
def SameFrame (file next : EncodedDbFile Writer Schema Batch) : Prop :=
  next.position = file.position ∧ next.info = file.info ∧ next.reader.schema = file.reader.schema

theorem writeBatch_frame (codecs : Codecs Writer Schema Batch) (batch : Batch)
    (file : EncodedDbFile Writer Schema Batch) :
    (writeBatch codecs batch file).2.reader = file.reader ∧
      (writeBatch codecs batch file).2.position = file.position ∧
      (writeBatch codecs batch file).2.info = file.info ∧
      (writeBatch codecs batch file).2.eof = file.eof := by
  unfold writeBatch
  cases file.writer with
  | none => exact ⟨rfl, rfl, rfl, rfl⟩
  | some writer => dsimp only; split <;> exact ⟨rfl, rfl, rfl, rfl⟩

theorem finish_frame (codecs : Codecs Writer Schema Batch)
    (file : EncodedDbFile Writer Schema Batch) :
    (finish codecs file).2.reader = file.reader ∧
      (finish codecs file).2.position = file.position ∧
      (finish codecs file).2.info = file.info ∧
      (finish codecs file).2.eof = file.eof ∧ (finish codecs file).2.writer = none := by
  unfold finish
  cases h : file.writer with
  | none => exact ⟨rfl, rfl, rfl, rfl, h⟩
  | some writer => dsimp only; split <;> exact ⟨rfl, rfl, rfl, rfl, rfl⟩

/- One pass over an item of the reader takes the item, and does not end the file. -/
theorem fillStep_cons (codecs : Codecs Writer Schema Batch)
    (file : EncodedDbFile Writer Schema Batch) (item : Except Str Batch)
    (rest : List (Except Str Batch)) (hitems : file.reader.items = item :: rest) :
    (fillStep codecs file).2.reader = { file.reader with items := rest } ∧
      SameFrame file (fillStep codecs file).2 ∧ (fillStep codecs file).2.eof = file.eof := by
  unfold fillStep
  rw [hitems]
  cases item with
  | error err => exact ⟨rfl, ⟨rfl, rfl, rfl⟩, rfl⟩
  | ok batch =>
    obtain ⟨h1, h2, h3, h4⟩ := writeBatch_frame codecs batch
      { file with reader := { file.reader with items := rest } }
    dsimp only
    generalize writeBatch codecs batch _ = written at h1 h2 h3 h4
    obtain ⟨result, next⟩ := written
    dsimp only at h1 h2 h3 h4
    cases result with
    | error err => exact ⟨h1, ⟨h2, h3, by rw [h1]⟩, h4⟩
    | ok _ => exact ⟨h1, ⟨h2, h3, by simp only [drainSink, h1]⟩, h4⟩

/- The pass that finds the reader at its end ends the file, unless finishing fails. -/
theorem fillStep_nil (codecs : Codecs Writer Schema Batch)
    (file : EncodedDbFile Writer Schema Batch) (hitems : file.reader.items = []) :
    (fillStep codecs file).2.reader = { file.reader with ended := true } ∧
      SameFrame file (fillStep codecs file).2 ∧ (fillStep codecs file).2.writer = none ∧
      (∀ err, (fillStep codecs file).1 = .error err → (fillStep codecs file).2.eof = file.eof) ∧
      ((fillStep codecs file).1 = .ok () → (fillStep codecs file).2.eof = true) := by
  unfold fillStep
  rw [hitems]
  obtain ⟨h1, h2, h3, h4, h5⟩ := finish_frame codecs
    { file with reader := { file.reader with ended := true } }
  dsimp only
  generalize finish codecs _ = finished at h1 h2 h3 h4 h5
  obtain ⟨result, next⟩ := finished
  dsimp only at h1 h2 h3 h4 h5
  cases result with
  | error err =>
    exact ⟨h1, ⟨h2, h3, by rw [h1]⟩, h5, fun _ _ => h4, fun h => absurd h (by simp)⟩
  | ok _ =>
    exact ⟨h1, ⟨h2, h3, by simp only [drainSink, h1]⟩, h5, fun _ h => absurd h (by simp),
      fun _ => rfl⟩

theorem fillStep_frame (codecs : Codecs Writer Schema Batch)
    (file : EncodedDbFile Writer Schema Batch) : SameFrame file (fillStep codecs file).2 := by
  cases hitems : file.reader.items with
  | nil => exact (fillStep_nil codecs file hitems).2.1
  | cons item rest => exact (fillStep_cons codecs file item rest hitems).2.1

/-- The loop of `fill_until`: as long as more bytes are wanted, one more pass. -/
theorem fillUntil_eq (codecs : Codecs Writer Schema Batch) (target : Option Nat)
    (file : EncodedDbFile Writer Schema Batch) :
    fillUntil codecs target file =
      if file.wants target then
        match fillStep codecs file with
        | (.error err, next) => (.error err, next)
        | (.ok (), next) => fillUntil codecs target next
      else (.ok (), file) := by
  cases hitems : file.reader.items with
  | cons item rest =>
    have hnext := (fillStep_cons codecs file item rest hitems).1
    rw [fillUntil, hitems, fillLoop]
    generalize fillStep codecs file = step at hnext
    obtain ⟨result, next⟩ := step
    cases result with
    | error err => rfl
    | ok _ =>
      have hrest : next.reader.items = rest := by rw [hnext]
      simp only [fillUntil, hrest]
  | nil =>
    obtain ⟨_, _, _, _, heof⟩ := fillStep_nil codecs file hitems
    rw [fillUntil, hitems, fillLoop]
    generalize fillStep codecs file = step at heof
    obtain ⟨result, next⟩ := step
    cases result with
    | error err => rfl
    | ok _ =>
      have hdone := wants_eof next target (heof rfl)
      have hstop : fillUntil codecs target next = (.ok (), next) := by
        rw [fillUntil]
        cases next.reader.items <;> simp only [fillLoop, hdone, Bool.false_eq_true, if_false]
      simp only [hstop]

theorem fillUntil_done (codecs : Codecs Writer Schema Batch) (target : Option Nat)
    (file : EncodedDbFile Writer Schema Batch) (h : file.wants target = false) :
    fillUntil codecs target file = (.ok (), file) := by
  rw [fillUntil_eq, h, if_neg Bool.false_ne_true]

/-- Induction along the loop: a property of every file that wants nothing more, or
whose next pass fails, kept backwards over the passes. -/
theorem fillUntil_induction (codecs : Codecs Writer Schema Batch) (target : Option Nat)
    (P : EncodedDbFile Writer Schema Batch → Prop)
    (hdone : ∀ file, file.wants target = false → P file)
    (herror : ∀ file err next, file.wants target = true →
      fillStep codecs file = (.error err, next) → P file)
    (hstep : ∀ file next, file.wants target = true →
      fillStep codecs file = (.ok (), next) → P next → P file)
    (file : EncodedDbFile Writer Schema Batch) : P file := by
  induction hitems : file.reader.items generalizing file with
  | nil =>
    cases hwants : file.wants target with
    | false => exact hdone file hwants
    | true =>
      obtain ⟨_, _, _, _, heof⟩ := fillStep_nil codecs file hitems
      cases hpass : fillStep codecs file with
      | mk result next =>
        cases result with
        | error err => exact herror file err next hwants hpass
        | ok _ =>
          rw [hpass] at heof
          exact hstep file next hwants hpass (hdone next (wants_eof next target (heof rfl)))
  | cons item rest ih =>
    cases hwants : file.wants target with
    | false => exact hdone file hwants
    | true =>
      have hnext := (fillStep_cons codecs file item rest hitems).1
      cases hpass : fillStep codecs file with
      | mk result next =>
        cases result with
        | error err => exact herror file err next hwants hpass
        | ok _ =>
          rw [hpass] at hnext
          exact hstep file next hwants hpass (ih next (by rw [hnext]))

/-- Filling leaves position, info and schema alone; if it succeeds, nothing more
is wanted. -/
theorem fillUntil_frame (codecs : Codecs Writer Schema Batch) (target : Option Nat)
    (file : EncodedDbFile Writer Schema Batch) :
    SameFrame file (fillUntil codecs target file).2 ∧
      ((fillUntil codecs target file).1 = .ok () →
        (fillUntil codecs target file).2.wants target = false) := by
  refine fillUntil_induction codecs target (fun file =>
    SameFrame file (fillUntil codecs target file).2 ∧
      ((fillUntil codecs target file).1 = .ok () →
        (fillUntil codecs target file).2.wants target = false)) ?_ ?_ ?_ file
  · intro file hwants
    rw [fillUntil_done codecs target file hwants]
    exact ⟨⟨rfl, rfl, rfl⟩, fun _ => hwants⟩
  · intro file err next hwants hpass
    have hframe := fillStep_frame codecs file
    rw [fillUntil_eq, if_pos hwants, hpass]
    rw [hpass] at hframe
    exact ⟨hframe, fun h => absurd h (by simp)⟩
  · intro file mid hwants hpass ih
    have hframe := fillStep_frame codecs file
    rw [fillUntil_eq, if_pos hwants, hpass]
    rw [hpass] at hframe
    obtain ⟨⟨h1, h2, h3⟩, hdone⟩ := ih
    exact ⟨⟨h1.trans hframe.1, h2.trans hframe.2.1, h3.trans hframe.2.2⟩, hdone⟩

end FsspecDb.Encoded.EncodedDbFile
