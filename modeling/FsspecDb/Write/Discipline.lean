import FsspecDb.Write.Methods

/-!
# When a write handle commits

Every call of the callback gets what was written, one call returns at most, and none comes
after an exceptional exit or a discard, as long as no text wrapper is left by an exception
and no deferred file is committed that was left or is not flushed.
-/

namespace FsspecDb.Write
open Transition

/-- The callback returns at most once, it gets what was written to the handle, and it is not
called after the with-block was left by an exception or after a discard. -/
structure Disciplined (s : State) : Prop where
  once : (s.calls.filter fun record => record.call.returned).length ≤ 1
  exact : ∀ record ∈ s.calls, record.call.returned = true → record.call.data = s.written
  left : ∀ record ∈ s.calls, record.left = false
  discarded : ∀ record ∈ s.calls, record.discarded = false

/-- An exceptional exit meets an open text wrapper only around a deferred file, and a deferred
file is committed only if no exceptional exit came before and the wrapper holds nothing. -/
def Meets (s : State) (action : Action) : Prop :=
  match action with
  | .exit true _ =>
    s.handle.pending.isSome = true → s.handle.closed = true ∨ s.handle.file.isDeferred = true
  | .commit _ | .transactionEnd false _ =>
    s.handle.closed = true ∨ (s.left = false ∧ s.handle.pending.getD [] = [])
  | _ => True

/-! ### The invariant of a run -/

theorem Disciplined.keep {s t : State} (h : Disciplined s) (hcalls : t.calls = s.calls)
    (hwritten : t.written = s.written ∨ ∀ record ∈ s.calls, record.call.returned = false) :
    Disciplined t := by
  refine ⟨?_, ?_, ?_, ?_⟩ <;> rw [hcalls]
  · exact h.once
  · intro record hrecord hreturned
    rcases hwritten with hsame | hnone
    · rw [hsame]
      exact h.exact record hrecord hreturned
    · rw [hnone record hrecord] at hreturned
      exact absurd hreturned (by decide)
  · exact h.left
  · exact h.discarded

/- One more call, when no call before it has returned. -/
theorem Disciplined.add {s t : State} {record : Record} (h : Disciplined s)
    (hcalls : t.calls = s.calls ++ [record]) (hwritten : t.written = s.written)
    (hbefore : ∀ record ∈ s.calls, record.call.returned = false)
    (hexact : record.call.data = s.written) (hleft : record.left = false)
    (hdiscarded : record.discarded = false) : Disciplined t := by
  have hmem (other : Record) (hother : other ∈ t.calls) :
      other ∈ s.calls ∨ other = record := by
    rw [hcalls] at hother
    exact (List.mem_append.mp hother).imp_right List.mem_singleton.mp
  refine ⟨?_, ?_, ?_, ?_⟩
  · have hnone : s.calls.filter (fun record => record.call.returned) = [] := by
      rw [List.filter_eq_nil_iff]
      intro other hother
      rw [hbefore other hother]
      decide
    rw [hcalls, List.filter_append, hnone, List.nil_append]
    exact List.length_filter_le _ _
  · intro other hother hreturned
    rcases hmem other hother with hold | rfl
    · rw [hbefore other hold] at hreturned
      exact absurd hreturned (by decide)
    · exact hexact.trans hwritten.symm
  · intro other hother
    rcases hmem other hother with hold | rfl
    · exact h.left other hold
    · exact hleft
  · intro other hother
    rcases hmem other hother with hold | rfl
    · exact h.discarded other hold
    · exact hdiscarded

/-- As long as the handle is open, it holds what was written to it and no call has returned. -/
structure Consistent (s : State) : Prop where
  wellFormed : s.handle.file.WellFormed
  content : s.handle.closed = false → s.handle.content = s.written
  unreturned : s.handle.closed = false → ∀ record ∈ s.calls, record.call.returned = false
  closed : s.discarded = true → s.handle.closed = true
  disciplined : Disciplined s

/-- And only a deferred file is still open after an exceptional exit, or in a transaction. -/
structure Inv (s : State) : Prop extends Consistent s where
  exited : s.left = true → s.handle.closed = true ∨ s.handle.file.isDeferred = true
  transaction : s.inTransaction = true → s.handle.file.isDeferred = true

theorem openHandle_inv (direct deferred text retries : Bool) :
    Inv (openHandle direct deferred text retries) := by
  have hfile : (openHandle direct deferred text retries).handle.content = [] ∧
      (openHandle direct deferred text retries).handle.file.WellFormed := by
    cases direct <;> cases deferred <;> cases text <;>
      exact ⟨rfl, by simp [openHandle, File.WellFormed]⟩
  refine ⟨⟨hfile.2, fun _ => hfile.1, nofun, nofun, ?_⟩, nofun, ?_⟩
  · exact ⟨Nat.zero_le 1, nofun, nofun, nofun⟩
  · intro hdeferred
    have hinside : deferred = true := hdeferred
    rw [hinside]
    rfl

/- A careful method of the file, when the wrapper holds nothing and a call is due only if no
exceptional exit came before. -/
theorem after_consistent {s : State} {result : File × Option Call} (h : Consistent s)
    (hpending : s.handle.closed = false → s.handle.pending.getD [] = [])
    (hcareful : Careful s.handle.file result)
    (hleft : ∀ call, result.2 = some call → s.left = false) :
    Consistent (s.after ({ s.handle with file := result.1 }, result.2)) := by
  have hvalue (hopen : s.handle.closed = false) : s.handle.file.value = s.written := by
    have hcontent := h.content hopen
    rwa [Handle.content, hpending hopen, List.append_nil] at hcontent
  have hcontent (hopen : result.1.closed = false) :
      result.1.value ++ s.handle.pending.getD [] = s.written := by
    have hbefore := hcareful.was_open hopen
    rw [hpending hbefore, List.append_nil, hcareful.value hopen, hvalue hbefore]
  have hclosed (hdiscarded : s.discarded = true) : result.1.closed = true :=
    (hcareful.closed (h.closed hdiscarded)).1
  cases hcall : result.2 with
  | none =>
    have hcalls : (s.after ({ s.handle with file := result.1 }, none)).calls = s.calls :=
      List.append_nil s.calls
    refine ⟨hcareful.wellFormed, hcontent, ?_, hclosed, h.disciplined.keep hcalls (.inl rfl)⟩
    intro hopen
    rw [hcalls]
    exact h.unreturned (hcareful.was_open hopen)
  | some call =>
    have hopen : s.handle.closed = false := hcareful.open_at_call hcall
    have hdiscarded : s.discarded = false := by
      cases hd : s.discarded with
      | false => rfl
      | true =>
        rw [h.closed hd] at hopen
        exact absurd hopen (by decide)
    have hdata : call.data = s.written := (hcareful.call call hcall).1.trans (hvalue hopen)
    refine ⟨hcareful.wellFormed, hcontent, ?_, hclosed, h.disciplined.add rfl rfl
      (h.unreturned hopen) hdata (hleft call hcall) hdiscarded⟩
    intro hafter record hrecord
    rcases List.mem_append.mp hrecord with hold | hnew
    · exact h.unreturned hopen record hold
    · rw [List.mem_singleton.mp hnew]
      cases hreturned : call.returned with
      | false => rfl
      | true =>
        have hdone := (hcareful.call call hcall).2 hreturned
        exact absurd (hdone.symm.trans hafter) (by decide)

theorem after_inv {s : State} {result : File × Option Call} (h : Inv s)
    (hpending : s.handle.closed = false → s.handle.pending.getD [] = [])
    (hcareful : Careful s.handle.file result)
    (hleft : ∀ call, result.2 = some call → s.left = false) :
    Inv (s.after ({ s.handle with file := result.1 }, result.2)) :=
  ⟨after_consistent h.toConsistent hpending hcareful hleft,
    fun hs => hcareful.exited (h.exited hs),
    fun hs => hcareful.deferred.trans (h.transaction hs)⟩

/- A step that calls nothing and leaves the file open or closed. -/
theorem Inv.update {s : State} (h : Inv s) {handle : Handle} {written : List Byte}
    (hclosed : handle.closed = s.handle.closed)
    (hdeferred : handle.file.isDeferred = s.handle.file.isDeferred)
    (hwell : handle.file.WellFormed)
    (hcontent : s.handle.closed = false → handle.content = written)
    (hwritten : s.handle.closed = true → written = s.written) :
    Inv { s with handle, written } := by
  refine ⟨⟨hwell, fun hopen => hcontent (hclosed.symm.trans hopen),
    fun hopen => h.unreturned (hclosed.symm.trans hopen),
    fun hs => hclosed.trans (h.closed hs), h.disciplined.keep rfl ?_⟩, ?_,
    fun hs => hdeferred.trans (h.transaction hs)⟩
  · cases hs : s.handle.closed with
    | true => exact .inl (hwritten hs)
    | false => exact .inr (h.unreturned hs)
  · exact fun hs => (h.exited hs).imp hclosed.trans hdeferred.trans

theorem write_inv {s : State} (h : Inv s) (hopen : s.handle.closed = false) (data : List Byte)
    (moved : Nat) :
    Inv { s with handle := s.handle.write data moved, written := s.written ++ data } := by
  have hvalue := write_value s.handle.file
  have hcontent := h.content hopen
  unfold Handle.write
  rw [if_neg (by simp [hopen])]
  have hclosed (hs : s.handle.closed = true) : s.written ++ data = s.written := by
    rw [hopen] at hs
    exact absurd hs (by decide)
  cases hpending : s.handle.pending with
  | none =>
    refine h.update (write_closed _ _) (write_isDeferred _ _) (write_wellFormed _ _ h.wellFormed)
      (fun _ => ?_) hclosed
    rw [Handle.content, hpending] at hcontent
    rw [Handle.content, hvalue data hopen, ← hcontent]
    simp
  | some bytes =>
    refine h.update (write_closed _ _) (write_isDeferred _ _) (write_wellFormed _ _ h.wellFormed)
      (fun _ => ?_) hclosed
    rw [Handle.content, hpending] at hcontent
    rw [Handle.content, hvalue _ hopen, ← hcontent]
    simp only [Option.getD_some, List.append_assoc, List.take_append_drop]

theorem flush_inv {s : State} (h : Inv s) : Inv { s with handle := s.handle.flush } := by
  cases hs : s.handle.closed with
  | true =>
    have hsame : s.handle.flush = s.handle := if_pos hs
    rw [hsame]
    exact h
  | false =>
    rw [flush_of_open s.handle hs]
    refine h.update (write_closed _ _) (write_isDeferred _ _) (write_wellFormed _ _ h.wellFormed)
      (fun _ => ?_) fun _ => rfl
    rw [← h.content hs, Handle.content, Handle.content, write_value _ _ hs]
    cases s.handle.pending <;> simp

/- Closing calls only for a file that is not deferred, and then no exceptional exit came before. -/
theorem close_file_inv {s : State} (h : Inv s)
    (hpending : s.handle.closed = false → s.handle.pending.getD [] = []) (returns : Bool) :
    Inv (s.after ({ s.handle with file := (s.handle.file.close returns).1 },
      (s.handle.file.close returns).2)) := by
  have hcareful := close_careful s.handle.file returns h.wellFormed
  refine after_inv h hpending hcareful fun call hcall => ?_
  have hopen : s.handle.closed = false := hcareful.open_at_call hcall
  cases hs : s.left with
  | false => rfl
  | true =>
    rcases h.exited hs with hclosed | hdeferred
    · exact absurd (hclosed.symm.trans hopen) (by decide)
    · exact absurd (hcall.symm.trans (close_deferred _ returns hdeferred)) (by simp)

theorem after_nothing (s : State) : s.after (s.handle, none) = s := by
  simp [State.after]

theorem close_inv {s : State} (h : Inv s) (returns : Bool) :
    Inv (s.after (s.handle.close returns)) := by
  unfold Handle.close
  split
  · rw [after_nothing]
    exact h
  · cases hpending : s.handle.pending with
    | none => exact close_file_inv h (fun _ => by rw [hpending]; rfl) returns
    | some bytes => exact close_file_inv (flush_inv h) (flush_pending s.handle) returns

/-! ### The steps -/

/- The fields that the invariant does not look at. -/
theorem Inv.mark {s : State} (h : Inv s) (inTransaction collected released : Bool)
    (hinside : inTransaction = true → s.inTransaction = true) :
    Inv { s with inTransaction, collected, released } :=
  ⟨⟨h.wellFormed, h.content, h.unreturned, h.closed, h.disciplined.keep rfl (.inl rfl)⟩,
    h.exited, fun hs => h.transaction (hinside hs)⟩

theorem exit_inv {s : State} (h : Inv s) (exception returns : Bool)
    (hmeets : Meets s (.exit exception returns)) (left : Bool)
    (hleft : exception = false → left = s.left) :
    Inv (State.after { s with left } (s.handle.exit exception returns)) := by
  cases exception with
  | false =>
    rw [hleft rfl, handle_exit_normal]
    exact close_inv h returns
  | true =>
    have hconsistent : Consistent { s with left } :=
      ⟨h.wellFormed, h.content, h.unreturned, h.closed, h.disciplined.keep rfl (.inl rfl)⟩
    unfold Handle.exit
    split
    · rename_i hpending
      have hinv : Inv { s with left } :=
        ⟨hconsistent, fun _ => hmeets hpending, h.transaction⟩
      exact close_inv hinv returns
    · rename_i hpending
      have hnone : s.handle.pending = none := Option.not_isSome_iff_eq_none.mp hpending
      obtain ⟨hcareful, hcall, hclosed⟩ := exit_exception s.handle.file returns h.wellFormed
      refine ⟨after_consistent hconsistent (fun _ => ?_) hcareful ?_, fun _ => ?_, fun hs => ?_⟩
      · show s.handle.pending.getD [] = []
        rw [hnone]
        rfl
      · intro call h
        exact absurd (hcall.symm.trans h) (by simp)
      · exact hclosed.imp id hcareful.deferred.trans
      · exact hcareful.deferred.trans (h.transaction hs)

theorem commit_inv {s : State} (h : Inv s) (returns : Bool)
    (hmeets : s.handle.closed = true ∨ (s.left = false ∧ s.handle.pending.getD [] = [])) :
    Inv (s.after ({ s.handle with file := (s.handle.file.commit returns).1 },
      (s.handle.file.commit returns).2)) := by
  have hcareful := commit_careful s.handle.file returns h.wellFormed
  have hopen (hs : s.handle.closed = false) :
      s.left = false ∧ s.handle.pending.getD [] = [] := by
    rcases hmeets with hclosed | hflushed
    · exact absurd (hclosed.symm.trans hs) (by decide)
    · exact hflushed
  exact after_inv h (fun hs => (hopen hs).2) hcareful
    fun call hcall => (hopen (hcareful.open_at_call hcall)).1

theorem discard_inv {s : State} (h : Inv s) (hcan : s.handle.file.canDiscard = true) :
    Inv { s with
      handle := { s.handle with file := s.handle.file.discard }
      discarded := true } := by
  have hcareful := discard_careful s.handle.file h.wellFormed
  have hclosed : s.handle.file.discard.closed = true :=
    discard_closed s.handle.file h.wellFormed hcan
  have hopen {P : Prop} (hs : s.handle.file.discard.closed = false) : P :=
    absurd (hclosed.symm.trans hs) (by decide)
  exact ⟨⟨hcareful.wellFormed, hopen, hopen, fun _ => hclosed,
    h.disciplined.keep rfl (.inl rfl)⟩, fun _ => .inl hclosed,
    fun hs => hcareful.deferred.trans (h.transaction hs)⟩

theorem collect_inv {s : State} (h : Inv s) (returns : Bool) :
    Inv (s.after (s.handle.collect returns)) := by
  unfold Handle.collect
  split
  · exact close_inv h returns
  · rename_i hpending
    have hnone : s.handle.pending = none := Option.not_isSome_iff_eq_none.mp hpending
    exact after_inv h (fun _ => by rw [hnone]; rfl)
      (collect_careful s.handle.file h.wellFormed) nofun

theorem transactionEnd_inv {s : State} (h : Inv s) (failed returns : Bool)
    (hmeets : Meets s (.transactionEnd failed returns)) :
    Inv (s.step (.transactionEnd failed returns)) := by
  unfold State.step
  dsimp only
  split
  · rename_i hinside
    cases failed with
    | true =>
      have hcan : s.handle.file.canDiscard = true := by
        have hdeferred := h.transaction hinside
        cases hfile : s.handle.file with
        | writeBuffer file =>
          rw [hfile] at hdeferred
          exact absurd hdeferred Bool.false_ne_true
        | deferred file => rfl
        | rust file => rfl
      have hinv := (discard_inv h hcan).mark false s.collected s.released nofun
      simpa using hinv
    | false =>
      have hinv := h.mark false s.collected s.released nofun
      simpa using commit_inv hinv returns hmeets
  · exact h

/- What one event keeps. -/
theorem step_inv {s : State} (h : Inv s) (action : Action) (hmeets : Meets s action) :
    Inv (s.step action) := by
  by_cases hcollected : s.collected = true
  · cases action with
    | transactionEnd failed returns => exact transactionEnd_inv h failed returns hmeets
    | _ =>
      simp only [State.step, hcollected, if_true]
      exact h
  · cases action with
    | transactionEnd failed returns => exact transactionEnd_inv h failed returns hmeets
    | write data moved =>
      simp only [State.step, if_neg hcollected]
      split
      · exact h
      · rename_i hopen
        exact write_inv h (by simpa using hopen) data moved
    | flush =>
      simp only [State.step, if_neg hcollected]
      exact flush_inv h
    | close returns =>
      simp only [State.step, if_neg hcollected]
      exact (close_inv h returns).mark _ _ _ id
    | commit returns =>
      simp only [State.step, if_neg hcollected]
      split
      · exact h
      · exact commit_inv h returns hmeets
    | discard =>
      simp only [State.step, if_neg hcollected]
      split
      · exact h
      · rename_i hcan
        rw [Bool.not_eq_true, Bool.or_eq_false_iff, Bool.not_eq_false'] at hcan
        exact discard_inv h hcan.2
    | exit exception returns =>
      simp only [State.step, if_neg hcollected]
      refine (exit_inv h exception returns hmeets _ ?_).mark _ _ _ id
      intro heq
      subst heq
      simp
    | collect returns =>
      simp only [State.step, if_neg hcollected]
      exact (collect_inv h returns).mark _ _ _ id

/-- In every run whose exceptional exits and commits meet the condition, the callback
returns at most once, with what was written, and is called neither after an exceptional exit
nor after a discard. -/
theorem commits_disciplined (direct deferred text retries : Bool) (actions : List Action)
    (t : State)
    (h : Run (restrict Step Meets) (openHandle direct deferred text retries) actions t) :
    Disciplined t := by
  have hinv : Inv t := h.invariant
    (fun s action t (hstep : restrict Step Meets s action t) hs => by
      obtain ⟨rfl, hmeets⟩ := hstep
      exact step_inv hs action hmeets)
    (openHandle_inv direct deferred text retries)
  exact hinv.disciplined

/- An id and a 1, in CSV. -/
def idFile : List Byte := [105, 100, 10, 49, 10]

/-- A binary `_WriteBuffer` in a with-block that ends without an exception. -/
theorem normal_exit_disciplined :
    Disciplined (((openHandle true false false false).step (.write idFile 0)).step
      (.exit false true)) :=
  commits_disciplined true false false false [.write idFile 0, .exit false true] _
    (.cons ⟨rfl, trivial⟩ (.cons ⟨rfl, trivial⟩ (.nil _)))

/-- A text handle in a with-block that ends with an exception: its wrapper closes the
`_WriteBuffer`, which commits. -/
theorem exceptional_exit_commits_text :
    ¬ ∀ direct deferred text retries actions t,
      Run Step (openHandle direct deferred text retries) actions t → Disciplined t := by
  intro h
  have hrun : Run Step (openHandle true false true false) [.write idFile 0, .exit true true]
      (((openHandle true false true false).step (.write idFile 0)).step (.exit true true)) :=
    .cons rfl (.cons rfl (.nil _))
  have hleft := (h true false true false _ _ hrun).left
  have hcalls : (((openHandle true false true false).step (.write idFile 0)).step
      (.exit true true)).calls = [⟨⟨idFile, true⟩, true, false⟩] := by decide
  rw [hcalls] at hleft
  exact absurd (hleft _ (List.mem_singleton.mpr rfl)) (by decide)

end FsspecDb.Write
