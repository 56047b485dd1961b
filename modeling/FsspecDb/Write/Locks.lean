import FsspecDb.Lib.Transition
import Mathlib.Logic.Function.Basic

/-!
# The two locks of a shared write handle (database.rs of the Python module)

A method of `RustDbFile` takes the mutex of the handle. Most take it under the GIL; `close` and
`discard` release the GIL first and need it again inside the commit, when the uploader calls the
Python database.
-/

namespace FsspecDb.Write.Locks
open Transition

/- The methods of `PyDbFile` that take the mutex; `__exit__` is `close` or `discard`. -/
inductive Method where
  | read
  | write
  | seek
  | tell
  | flush
  | close
  | discard
  | closed
  | readable
  | writable
  | seekable
  | size
  | info
  | repr
  deriving Repr, DecidableEq

/- The methods with `py.detach`. -/
def Method.detaches : Method → Bool
  | .close | .discard => true
  | _ => false

inductive Lock where
  | gil
  | mutex
  deriving Repr, DecidableEq

/-- Where a thread is. -/
inductive Phase where
  /- In no method, without and with the GIL. -/
  | ready
  | running
  /- In a method that keeps the GIL, before and behind `lock_inner`. -/
  | entering (method : Method)
  | inside (method : Method)
  /- In a method that released the GIL: before `lock_inner`, behind it, in `Python::attach`, in a
  call of the Python database, and at the end of `detach`. -/
  | detached (method : Method)
  | working (method : Method)
  | attaching (method : Method)
  | inPython (method : Method)
  | returning (method : Method)
  deriving Repr, DecidableEq

def Phase.holds : Phase → Lock → Bool
  | .running, .gil | .entering _, .gil | .inside _, .gil | .inPython _, .gil => true
  | .inside _, .mutex | .working _, .mutex | .attaching _, .mutex | .inPython _, .mutex => true
  | _, _ => false

/- The lock without which the thread cannot go on. -/
def Phase.waits : Phase → Option Lock
  | .ready | .attaching _ | .returning _ => some .gil
  | .entering _ | .detached _ => some .mutex
  | _ => none

/- `pending`: the commit has still to call the Python database. -/
structure State where
  phase : Bool → Phase
  pending : Bool

/-- One step of a thread. `calls` says which of the methods call the database while a commit is
pending, `free` which locks the other thread leaves; the flag behind is `pending`. -/
inductive Move (calls : Method → Bool) (free : Lock → Bool) : Phase → Bool → Phase → Bool → Prop
    where
  | resume (pending : Bool) (h : free .gil = true) : Move calls free .ready pending .running pending
  | switch (pending : Bool) : Move calls free .running pending .ready pending
  | call (pending : Bool) (method : Method) (h : method.detaches = false) :
    Move calls free .running pending (.entering method) pending
  | lock (pending : Bool) (method : Method) (h : free .mutex = true) :
    Move calls free (.entering method) pending (.inside method) pending
  | leave (pending : Bool) (method : Method) :
    Move calls free (.inside method) pending .running pending
  | detach (pending : Bool) (method : Method) (h : method.detaches = true) :
    Move calls free .running pending (.detached method) pending
  | lockDetached (pending : Bool) (method : Method) (h : free .mutex = true) :
    Move calls free (.detached method) pending (.working method) pending
  | attach (method : Method) (h : calls method = true) :
    Move calls free (.working method) true (.attaching method) true
  | enter (pending : Bool) (method : Method) (h : free .gil = true) :
    Move calls free (.attaching method) pending (.inPython method) pending
  -- the interpreter may give the GIL to another thread at any time
  | switchInside (pending : Bool) (method : Method) :
    Move calls free (.inPython method) pending (.attaching method) pending
  | exit (pending : Bool) (method : Method) :
    Move calls free (.inPython method) pending (.working method) pending
  -- a commit that has failed may leave the handle as it was
  | unlock (pending after : Bool) (method : Method) (h : after = pending ∨ after = false) :
    Move calls free (.working method) pending (.returning method) after
  | back (pending : Bool) (method : Method) (h : free .gil = true) :
    Move calls free (.returning method) pending .running pending

/- The locks that a thread does not hold. -/
def Phase.leaves (phase : Phase) (lock : Lock) : Bool := !phase.holds lock

/-- A step of thread `label.1` to the phase `label.2`. -/
def Step (calls : Method → Bool) : System State (Bool × Phase) := fun s label t =>
  ∃ pending, Move calls (s.phase !label.1).leaves (s.phase label.1) s.pending label.2 pending ∧
    t = ⟨Function.update s.phase label.1 label.2, pending⟩

/- A handle just opened for writing, and two threads. -/
def start : State := ⟨fun _ => .ready, true⟩

/- Each thread holds one lock and waits for the other. -/
def Deadlock (s : State) : Prop :=
  ∃ l l', l ≠ l' ∧ (s.phase false).holds l = true ∧ (s.phase false).waits = some l' ∧
    (s.phase true).holds l' = true ∧ (s.phase true).waits = some l

/- In a `close` or `discard` that has still to call the database. -/
def Uploading (calls : Method → Bool) (pending : Bool) : Phase → Prop
  | .detached method | .working method | .attaching method | .inPython method =>
    calls method = true ∧ pending = true
  | _ => False

/-- No method that keeps the GIL is called while the other thread is uploading. -/
def Meets (calls : Method → Bool) (s : State) (label : Bool × Phase) : Prop :=
  ∀ method, label.2 = .entering method → ¬ Uploading calls s.pending (s.phase !label.1)

/-! ### What one step does -/

section
variable {calls : Method → Bool} {free : Lock → Bool} {phase next : Phase} {pending after : Bool}

/- A lock is taken only where the other thread leaves it. -/
theorem Move.holds (h : Move calls free phase pending next after) (lock : Lock)
    (hnext : next.holds lock = true) : phase.holds lock = true ∨ free lock = true := by
  cases h <;> cases lock <;> simp_all [Phase.holds]

theorem Move.pending_le (h : Move calls free phase pending next after) (hafter : after = true) :
    pending = true := by
  cases h <;> simp_all

/- Only behind `lock_inner` a commit comes to its end. -/
theorem Move.pending_eq (h : Move calls free phase pending next after)
    (hmutex : phase.holds .mutex = false) : after = pending := by
  cases h <;> simp_all [Phase.holds]

/- `close` and `discard` begin where the thread has the GIL. -/
theorem Move.uploading (h : Move calls free phase pending next after)
    (hnext : Uploading calls after next) : phase = .running ∨ Uploading calls pending phase := by
  cases h <;> simp_all [Uploading]

theorem Move.entering {method : Method}
    (h : Move calls free phase pending (.entering method) after) :
    phase = .running ∧ after = pending := by
  cases h
  exact ⟨rfl, rfl⟩

/- In a call of the database, or on the way into one. -/
def Attached (calls : Method → Bool) (pending : Bool) : Phase → Prop
  | .attaching method | .inPython method => calls method = true ∧ pending = true
  | _ => True

theorem Move.attached (h : Move calls free phase pending next after)
    (hphase : Attached calls pending phase) : Attached calls after next := by
  cases h <;> simp_all [Attached]

end

theorem Uploading.mono {calls : Method → Bool} {pending after : Bool} {phase : Phase}
    (hle : after = true → pending = true) (h : Uploading calls after phase) :
    Uploading calls pending phase := by
  cases phase <;> simp_all [Uploading]

/-! ### Invariants -/

/-- Neither lock is held twice, and the calls of the database are those of a pending commit. -/
structure Sound (calls : Method → Bool) (s : State) : Prop where
  exclusive : ∀ i lock, (s.phase i).holds lock = true → (s.phase !i).holds lock = false
  attached : ∀ i, Attached calls s.pending (s.phase i)

/-- No thread waits for the mutex with the GIL while the other one is uploading. -/
def Apart (calls : Method → Bool) (s : State) : Prop :=
  ∀ i method, s.phase i = .entering method → ¬ Uploading calls s.pending (s.phase !i)

theorem sound_start (calls : Method → Bool) : Sound calls start :=
  ⟨fun _ _ h => by simp [start, Phase.holds] at h, fun _ => trivial⟩

theorem apart_start (calls : Method → Bool) : Apart calls start :=
  fun _ _ h => by simp [start] at h

section
variable {calls : Method → Bool}

theorem thread_cases (i j : Bool) : j = i ∨ j = !i := by
  cases i <;> cases j <;> simp

theorem Sound.step {s t : State} {label : Bool × Phase} (h : Sound calls s)
    (hstep : Step calls s label t) : Sound calls t := by
  obtain ⟨i, next⟩ := label
  obtain ⟨pending, hmove, rfl⟩ := hstep
  dsimp only at hmove
  have hself : Function.update s.phase i next i = next := Function.update_self i next s.phase
  have hother : Function.update s.phase i next (!i) = s.phase !i :=
    Function.update_of_ne (by simp) next s.phase
  have hleft (lock : Lock) (hnext : next.holds lock = true) :
      (s.phase !i).holds lock = false := by
    rcases hmove.holds lock hnext with hheld | hfree
    · exact h.exclusive i lock hheld
    · simpa [Phase.leaves] using hfree
  constructor
  · intro j lock hlock
    dsimp only at hlock ⊢
    rcases thread_cases i j with rfl | rfl
    · rw [hself] at hlock
      rw [hother]
      exact hleft lock hlock
    · rw [hother] at hlock
      rw [Bool.not_not, hself]
      by_contra hnext
      rw [Bool.not_eq_false] at hnext
      rw [hleft lock hnext] at hlock
      exact absurd hlock (by decide)
  · intro j
    dsimp only
    rcases thread_cases i j with rfl | rfl
    · rw [hself]
      exact hmove.attached (h.attached j)
    · rw [hother]
      -- the other thread would hold the mutex too
      cases hphase : s.phase !i with
      | attaching method =>
        have hmutex : (s.phase i).holds .mutex = false := by
          have hheld := h.exclusive (!i) .mutex (by rw [hphase]; rfl)
          rwa [Bool.not_not] at hheld
        have hattached := h.attached (!i)
        rwa [hphase, ← hmove.pending_eq hmutex] at hattached
      | inPython method =>
        have hmutex : (s.phase i).holds .mutex = false := by
          have hheld := h.exclusive (!i) .mutex (by rw [hphase]; rfl)
          rwa [Bool.not_not] at hheld
        have hattached := h.attached (!i)
        rwa [hphase, ← hmove.pending_eq hmutex] at hattached
      | _ => trivial

theorem Apart.step {s t : State} {label : Bool × Phase} (h : Apart calls s)
    (hsound : Sound calls s) (hstep : Step calls s label t) (hmeets : Meets calls s label) :
    Apart calls t := by
  obtain ⟨i, next⟩ := label
  obtain ⟨pending, hmove, rfl⟩ := hstep
  dsimp only at hmove
  have hself : Function.update s.phase i next i = next := Function.update_self i next s.phase
  have hother : Function.update s.phase i next (!i) = s.phase !i :=
    Function.update_of_ne (by simp) next s.phase
  intro j method hphase huploading
  dsimp only at hphase huploading
  rcases thread_cases i j with rfl | rfl
  · rw [hself] at hphase
    rw [hother] at huploading
    exact hmeets method hphase (huploading.mono hmove.pending_le)
  · rw [hother] at hphase
    rw [Bool.not_not, hself] at huploading
    rcases hmove.uploading huploading with hrunning | hbefore
    · have hgil := hsound.exclusive i .gil (by rw [hrunning]; rfl)
      rw [hphase] at hgil
      exact absurd hgil (by simp [Phase.holds])
    · have hapart := h (!i) method hphase
      rw [Bool.not_not] at hapart
      exact hapart hbefore

/-! ### Deadlocks -/

theorem entering_of_waits {phase : Phase} (hholds : phase.holds .gil = true)
    (hwaits : phase.waits = some .mutex) : ∃ method, phase = .entering method := by
  cases phase <;> simp_all [Phase.holds, Phase.waits]

theorem attaching_of_waits {phase : Phase} (hholds : phase.holds .mutex = true)
    (hwaits : phase.waits = some .gil) : ∃ method, phase = .attaching method := by
  cases phase <;> simp_all [Phase.holds, Phase.waits]

/- One thread before the mutex with the GIL, the other before the GIL with the mutex. -/
theorem deadlock_iff (s : State) : Deadlock s ↔ ∃ i method method',
    s.phase i = .entering method ∧ s.phase (!i) = .attaching method' := by
  constructor
  · intro h
    obtain ⟨l, l', hne, hholds, hwaits, hholds', hwaits'⟩ := h
    cases l with
    | gil =>
      cases l' with
      | gil => exact absurd rfl hne
      | mutex =>
        obtain ⟨method, hentering⟩ := entering_of_waits hholds hwaits
        obtain ⟨method', hattaching⟩ := attaching_of_waits hholds' hwaits'
        exact ⟨false, method, method', hentering, hattaching⟩
    | mutex =>
      cases l' with
      | gil =>
        obtain ⟨method, hentering⟩ := entering_of_waits hholds' hwaits'
        obtain ⟨method', hattaching⟩ := attaching_of_waits hholds hwaits
        exact ⟨true, method, method', hentering, hattaching⟩
      | mutex => exact absurd rfl hne
  · intro h
    obtain ⟨i, method, method', hentering, hattaching⟩ := h
    cases i with
    | false =>
      refine ⟨.gil, .mutex, by decide, ?_⟩
      rw [hentering, show s.phase true = .attaching method' from hattaching]
      exact ⟨rfl, rfl, rfl, rfl⟩
    | true =>
      refine ⟨.mutex, .gil, by decide, ?_⟩
      rw [hentering, show s.phase false = .attaching method' from hattaching]
      exact ⟨rfl, rfl, rfl, rfl⟩

theorem Sound.not_deadlock {s : State} (h : Sound calls s) (hapart : Apart calls s) :
    ¬ Deadlock s := by
  intro hdeadlock
  obtain ⟨i, method, method', hentering, hattaching⟩ := (deadlock_iff s).mp hdeadlock
  have hattached := h.attached (!i)
  have huploading := hapart i method hentering
  rw [hattaching] at hattached huploading
  exact huploading hattached

theorem sound_reachable {s : State} (h : Reachable (Step calls) start s) : Sound calls s :=
  h.invariant (fun _ _ _ hstep hsound => hsound.step hstep) (sound_start calls)

theorem restricted_reachable {s : State}
    (h : Reachable (restrict (Step calls) (Meets calls)) start s) :
    Sound calls s ∧ Apart calls s := by
  refine h.invariant (I := fun s => Sound calls s ∧ Apart calls s) ?_
    ⟨sound_start calls, apart_start calls⟩
  intro s label t hstep hboth
  exact ⟨hboth.1.step hstep.1, hboth.2.step hboth.1 hstep.1 hstep.2⟩

/-! ### A call while the other thread is uploading -/

/- One move of a thread as a step. -/
theorem step_of_move {s : State} (i : Bool) {next : Phase} {pending : Bool}
    (h : Move calls (s.phase !i).leaves (s.phase i) s.pending next pending) :
    Step calls s (i, next) ⟨Function.update s.phase i next, pending⟩ := ⟨pending, h, rfl⟩

theorem attaching_deadlock {s : State} (i : Bool) (method method' : Method)
    (hentering : s.phase i = .entering method) (hattaching : s.phase (!i) = .attaching method') :
    ∃ u, Reachable (Step calls) s u ∧ Deadlock u :=
  ⟨s, .refl _ s, (deadlock_iff s).mpr ⟨i, method, method', hentering, hattaching⟩⟩

theorem working_deadlock {s : State} (i : Bool) (method method' : Method)
    (hentering : s.phase i = .entering method) (hworking : s.phase (!i) = .working method')
    (hcalls : calls method' = true) (hpending : s.pending = true) :
    ∃ u, Reachable (Step calls) s u ∧ Deadlock u := by
  have hstep : Step calls s (!i, .attaching method')
      ⟨Function.update s.phase (!i) (.attaching method'), true⟩ := by
    apply step_of_move
    rw [hworking, hpending]
    exact .attach method' hcalls
  obtain ⟨u, hreach, hdeadlock⟩ := @attaching_deadlock calls
    ⟨Function.update s.phase (!i) (.attaching method'), true⟩ i method method'
    ((Function.update_of_ne (by simp) _ _).trans hentering) (Function.update_self _ _ _)
  exact ⟨u, hreach.head hstep, hdeadlock⟩

theorem detached_deadlock {s : State} (i : Bool) (method method' : Method)
    (hentering : s.phase i = .entering method) (hdetached : s.phase (!i) = .detached method')
    (hcalls : calls method' = true) (hpending : s.pending = true) :
    ∃ u, Reachable (Step calls) s u ∧ Deadlock u := by
  have hstep : Step calls s (!i, .working method')
      ⟨Function.update s.phase (!i) (.working method'), s.pending⟩ := by
    apply step_of_move
    rw [hdetached, Bool.not_not, hentering]
    exact .lockDetached s.pending method' rfl
  obtain ⟨u, hreach, hdeadlock⟩ := @working_deadlock calls
    ⟨Function.update s.phase (!i) (.working method'), s.pending⟩ i method method'
    ((Function.update_of_ne (by simp) _ _).trans hentering) (Function.update_self _ _ _) hcalls
    hpending
  exact ⟨u, hreach.head hstep, hdeadlock⟩

theorem uploading_deadlock {s t : State} (hsound : Sound calls s) (i : Bool) (method : Method)
    (hstep : Step calls s (i, .entering method) t)
    (huploading : Uploading calls s.pending (s.phase !i)) :
    ∃ u, Reachable (Step calls) t u ∧ Deadlock u := by
  obtain ⟨pending, hmove, rfl⟩ := hstep
  dsimp only at hmove ⊢
  obtain ⟨hrunning, rfl⟩ := hmove.entering
  have hself := Function.update_self i (.entering method) s.phase
  have hother : Function.update s.phase i (.entering method) (!i) = s.phase !i :=
    Function.update_of_ne (by simp) _ s.phase
  cases hphase : s.phase !i with
  | detached method' =>
    rw [hphase] at huploading hother
    exact detached_deadlock i method method' hself hother huploading.1 huploading.2
  | working method' =>
    rw [hphase] at huploading hother
    exact working_deadlock i method method' hself hother huploading.1 huploading.2
  | attaching method' =>
    rw [hphase] at hother
    exact attaching_deadlock i method method' hself hother
  | inPython method' =>
    -- both threads would hold the GIL
    have hgil := hsound.exclusive i .gil (by rw [hrunning]; rfl)
    rw [hphase] at hgil
    exact absurd hgil (by simp [Phase.holds])
  | _ =>
    rw [hphase] at huploading
    exact huploading.elim

end

/-- Runs without such a call reach no deadlock, and after such a call one can be reached. -/
theorem lock_inversion (calls : Method → Bool) :
    (∀ s, Reachable (restrict (Step calls) (Meets calls)) start s → ¬ Deadlock s) ∧
    ∀ s label t, Reachable (Step calls) start s → Step calls s label t → ¬ Meets calls s label →
      ∃ u, Reachable (Step calls) t u ∧ Deadlock u := by
  constructor
  · intro s h
    obtain ⟨hsound, hapart⟩ := restricted_reachable h
    exact hsound.not_deadlock hapart
  · intro s label t hreach hstep hviolates
    obtain ⟨i, next⟩ := label
    unfold Meets at hviolates
    push Not at hviolates
    obtain ⟨method, hnext, huploading⟩ := hviolates
    obtain rfl : next = .entering method := hnext
    exact uploading_deadlock (sound_reachable hreach) i method hstep huploading

/- One thread is in `close` without the mutex, the other one has the GIL. -/
def closing : State := ⟨fun thread => if thread then .running else .detached .close, true⟩

theorem closing_reachable : Reachable (restrict (Step Method.detaches) (Meets Method.detaches))
    start closing := by
  let s₁ : State := ⟨Function.update start.phase false .running, true⟩
  let s₂ : State := ⟨Function.update s₁.phase false (.detached .close), true⟩
  have h₁ : Step Method.detaches start (false, .running) s₁ := ⟨true, .resume true rfl, rfl⟩
  have h₂ : Step Method.detaches s₁ (false, .detached .close) s₂ :=
    ⟨true, .detach true .close rfl, rfl⟩
  have h₃ : Step Method.detaches s₂ (true, .running) closing := by
    refine ⟨true, .resume true rfl, congrArg (State.mk · true) ?_⟩
    funext thread
    cases thread <;> rfl
  have hmeets (s : State) (label : Bool × Phase) (h : ∀ method, label.2 ≠ .entering method) :
      Meets Method.detaches s label := fun method hnext => absurd hnext (h method)
  exact .head ⟨h₁, hmeets _ _ nofun⟩ (.head ⟨h₂, hmeets _ _ nofun⟩
    (.head ⟨h₃, hmeets _ _ nofun⟩ (.refl _ _)))

/- Until the other thread writes there is no deadlock; then there can be one. -/
theorem lock_inversion_closing : ¬ Deadlock closing ∧ ∃ s u, Step Method.detaches closing
    (true, .entering .write) s ∧ Reachable (Step Method.detaches) s u ∧ Deadlock u := by
  have hcall : Step Method.detaches closing (true, .entering .write)
      ⟨Function.update closing.phase true (.entering .write), true⟩ :=
    ⟨true, .call true .write rfl, rfl⟩
  have hviolates : ¬ Meets Method.detaches closing (true, .entering .write) :=
    fun h => h .write rfl ⟨rfl, rfl⟩
  obtain ⟨u, hu, hdeadlock⟩ := (lock_inversion Method.detaches).2 closing _ _
    closing_reachable.of_restrict hcall hviolates
  exact ⟨(lock_inversion Method.detaches).1 closing closing_reachable, _, u, hcall, hu, hdeadlock⟩

/- One thread closes, and before it has the mutex the other one writes. -/
theorem lock_inversion_close_write :
    ∃ s, Reachable (Step Method.detaches) start s ∧ Deadlock s := by
  let s₁ : State := ⟨Function.update closing.phase true (.entering .write), true⟩
  have h₁ : Step Method.detaches closing (true, .entering .write) s₁ :=
    ⟨true, .call true .write rfl, rfl⟩
  obtain ⟨s, hreach, hdeadlock⟩ := @detached_deadlock Method.detaches s₁ true .write
    .close rfl rfl rfl rfl
  exact ⟨s, closing_reachable.of_restrict.trans (.head h₁ hreach), hdeadlock⟩

end FsspecDb.Write.Locks
