import FsspecDb.Write.Handle

/-!
# What the methods of a write handle do

Each method of a file passes its bytes to the callback or calls nothing, closes the file when
the callback returns, and leaves a closed file closed.
-/

namespace FsspecDb.Write

def File.WellFormed : File → Prop
  | .writeBuffer file => file.closed = false → file.commitEnabled = true
  | .deferred file => file.completed = file.closed
  | .rust _ => True

/-- A method of a file that passes its bytes to the callback if it calls it, closes the file
if the call returns, and calls nothing for a closed file. -/
structure Careful (file : File) (result : File × Option Call) : Prop where
  closed : file.closed = true → result.1.closed = true ∧ result.2 = none
  value : result.1.closed = false → result.1.value = file.value
  call : ∀ call, result.2 = some call → call.data = file.value ∧
    (call.returned = true → result.1.closed = true)
  wellFormed : result.1.WellFormed
  deferred : result.1.isDeferred = file.isDeferred

section
variable (file : File) (data : List Byte)

theorem write_closed : (file.write data).closed = file.closed := by
  unfold File.write
  split
  · rfl
  · cases file with
    | writeBuffer file => rfl
    | deferred file => rfl
    | rust file => simp [File.closed]

theorem write_isDeferred : (file.write data).isDeferred = file.isDeferred := by
  unfold File.write
  split
  · rfl
  · cases file <;> rfl

theorem write_wellFormed (h : file.WellFormed) : (file.write data).WellFormed := by
  unfold File.write
  split
  · exact h
  · cases file <;> exact h

theorem write_value (hopen : file.closed = false) :
    (file.write data).value = file.value ++ data := by
  unfold File.write
  rw [if_neg (by simp [hopen])]
  cases file with
  | writeBuffer file => rfl
  | deferred file => rfl
  | rust file =>
    obtain ⟨inner, hinner⟩ : ∃ inner, file.inner = some inner := by
      cases h : file.inner with
      | none => simp [File.closed, h] at hopen
      | some inner => exact ⟨inner, rfl⟩
    simp [File.value, hinner]

end

/-! ### The methods of a file -/

section
variable {file : File} {result : File × Option Call}

theorem Careful.unchanged (hwell : file.WellFormed) : Careful file (file, none) :=
  ⟨fun h => ⟨h, rfl⟩, fun _ => rfl, nofun, hwell, rfl⟩

/- A method that closes the file without a call. -/
theorem Careful.of_closed (hclosed : result.1.closed = true) (hcall : result.2 = none)
    (hwell : result.1.WellFormed) (hdeferred : result.1.isDeferred = file.isDeferred) :
    Careful file result := by
  refine ⟨fun _ => ⟨hclosed, hcall⟩, ?_, ?_, hwell, hdeferred⟩
  · intro hopen
    rw [hclosed] at hopen
    exact absurd hopen (by decide)
  · intro call h
    rw [hcall] at h
    exact absurd h (by simp)

/- A method that calls the callback for an open file, and closes it if the call returns. -/
theorem Careful.of_call {returns : Bool} (hopen : file.closed = false)
    (hcall : result.2 = some ⟨file.value, returns⟩) (hclosed : result.1.closed = returns)
    (hvalue : returns = false → result.1.value = file.value)
    (hwell : result.1.WellFormed) (hdeferred : result.1.isDeferred = file.isDeferred) :
    Careful file result := by
  refine ⟨?_, ?_, ?_, hwell, hdeferred⟩
  · intro h
    rw [hopen] at h
    exact absurd h (by decide)
  · intro h
    exact hvalue (hclosed.symm.trans h)
  · intro call h
    rw [hcall] at h
    rw [← Option.some.inj h]
    exact ⟨rfl, fun hreturned => hclosed.trans hreturned⟩

theorem Careful.was_open (h : Careful file result) (hopen : result.1.closed = false) :
    file.closed = false := by
  cases hclosed : file.closed with
  | false => rfl
  | true =>
    rw [(h.closed hclosed).1] at hopen
    exact absurd hopen (by decide)

theorem Careful.open_at_call {call : Call} (h : Careful file result)
    (hcall : result.2 = some call) : file.closed = false := by
  cases hclosed : file.closed with
  | false => rfl
  | true =>
    rw [(h.closed hclosed).2] at hcall
    exact absurd hcall (by simp)

theorem Careful.exited (h : Careful file result)
    (hfile : file.closed = true ∨ file.isDeferred = true) :
    result.1.closed = true ∨ result.1.isDeferred = true := by
  rcases hfile with hclosed | hdeferred
  · exact .inl (h.closed hclosed).1
  · exact .inr (h.deferred.trans hdeferred)

end

section
variable (file : File) (returns : Bool) (hwell : file.WellFormed)
include hwell

theorem close_careful : Careful file (file.close returns) := by
  cases file with
  | writeBuffer file =>
    obtain ⟨value, closed, commitEnabled⟩ := file
    cases closed with
    | true => exact .of_closed rfl rfl nofun rfl
    | false =>
      obtain rfl : commitEnabled = true := hwell rfl
      cases returns with
      | true => exact .of_call rfl rfl rfl nofun nofun rfl
      | false => exact .of_call rfl rfl rfl (fun _ => rfl) (fun _ => rfl) rfl
  | deferred file =>
    obtain ⟨value, closed, completed⟩ := file
    obtain rfl : completed = closed := hwell
    cases completed with
    | true => exact .of_closed rfl rfl rfl rfl
    | false => exact .unchanged rfl
  | rust file =>
    obtain ⟨inner⟩ := file
    cases inner with
    | none => exact .of_closed rfl rfl trivial rfl
    | some inner =>
      obtain ⟨buffered, retries, spent⟩ := inner
      cases spent with
      | true => exact .of_closed rfl rfl trivial rfl
      | false =>
        cases returns with
        | true => exact .of_call rfl rfl rfl nofun trivial rfl
        | false => exact .of_call rfl rfl rfl (fun _ => rfl) trivial rfl

/- The exit by an exception calls nothing. -/
theorem exit_exception : Careful file (file.exit true returns) ∧
    (file.exit true returns).2 = none ∧
    ((file.exit true returns).1.closed = true ∨ file.isDeferred = true) := by
  cases file with
  | writeBuffer file =>
    have hexit : (File.writeBuffer file).exit true returns =
        (.writeBuffer { file with commitEnabled := false, closed := true }, none) := by
      simp [File.exit, WriteBuffer.exit, WriteBuffer.close]
    rw [hexit]
    exact ⟨.of_closed rfl rfl nofun rfl, rfl, .inl rfl⟩
  | deferred file => exact ⟨close_careful (.deferred file) returns hwell, rfl, .inr rfl⟩
  | rust file => exact ⟨.of_closed rfl rfl trivial rfl, rfl, .inl rfl⟩

theorem commit_careful : Careful file (file.commit returns) := by
  cases file with
  | writeBuffer file => exact .unchanged hwell
  | deferred file =>
    obtain ⟨value, closed, completed⟩ := file
    obtain rfl : completed = closed := hwell
    cases completed with
    | true => exact .unchanged rfl
    | false =>
      cases returns with
      | true => exact .of_call rfl rfl rfl nofun rfl rfl
      | false => exact .of_call rfl rfl rfl (fun _ => rfl) rfl rfl
  | rust file => exact .unchanged hwell

theorem discard_careful : Careful file (file.discard, none) := by
  cases file with
  | writeBuffer file => exact .unchanged hwell
  | deferred file =>
    obtain ⟨value, closed, completed⟩ := file
    obtain rfl : completed = closed := hwell
    cases completed <;> exact .of_closed rfl rfl rfl rfl
  | rust file => exact .of_closed rfl rfl trivial rfl

theorem discard_closed (h : file.canDiscard = true) : file.discard.closed = true := by
  cases file with
  | writeBuffer file => exact absurd h Bool.false_ne_true
  | deferred file =>
    obtain ⟨value, closed, completed⟩ := file
    obtain rfl : completed = closed := hwell
    cases completed <;> rfl
  | rust file => rfl

theorem collect_careful : Careful file (file.collect, none) := by
  cases file with
  | writeBuffer file => exact .of_closed rfl rfl nofun rfl
  | deferred file => exact close_careful (.deferred file) true hwell
  | rust file => exact .of_closed rfl rfl trivial rfl

end

theorem exit_normal (file : File) (returns : Bool) :
    file.exit false returns = file.close returns := by
  cases file <;> rfl

/- Only a commit makes a call with the bytes of a deferred file. -/
theorem close_deferred (file : File) (returns : Bool) (h : file.isDeferred = true) :
    (file.close returns).2 = none := by
  cases file with
  | writeBuffer file => exact absurd h Bool.false_ne_true
  | deferred file => rfl
  | rust file => exact absurd h Bool.false_ne_true

/-! ### The methods of a handle -/

/-- The bytes of the file and those the wrapper still holds. -/
def Handle.content (handle : Handle) : List Byte := handle.file.value ++ handle.pending.getD []

theorem flush_of_open (handle : Handle) (h : handle.closed = false) :
    handle.flush = ⟨handle.file.write (handle.pending.getD []),
      handle.pending.map fun _ => []⟩ :=
  if_neg (by simp [h])

theorem flush_closed (handle : Handle) : handle.flush.closed = handle.closed := by
  cases h : handle.closed with
  | true =>
    have hsame : handle.flush = handle := if_pos h
    rw [hsame, h]
  | false =>
    rw [flush_of_open handle h]
    exact (write_closed _ _).trans h

theorem flush_pending (handle : Handle) (h : handle.flush.closed = false) :
    handle.flush.pending.getD [] = [] := by
  rw [flush_of_open handle ((flush_closed handle).symm.trans h)]
  cases handle.pending <;> rfl

theorem handle_exit_normal (handle : Handle) (returns : Bool) :
    handle.exit false returns = handle.close returns := by
  unfold Handle.exit
  split
  · rfl
  · rename_i hpending
    simp only [Handle.close, hpending, exit_normal, Bool.false_and, Bool.false_eq_true, if_false]

end FsspecDb.Write
