import FsspecDb.Utf8.Exact

/-!
# Where lossy decoding may be cut

A byte that continues nothing ends whatever is under way. So lossy decoding is done piece
by piece wherever a piece starts with such a byte, or the piece before it was well formed.
-/

namespace FsspecDb.Utf8

/-- A byte that continues no sequence. -/
def Starts (b : Byte) : Prop := b.toNat < 0x80 ∨ 0xC0 ≤ b.toNat

/-- What the next byte of a sequence under way must be is a continuation byte. -/
def Pending.Continues (p : Pending) : Prop := 0x80 ≤ p.low.toNat ∧ p.high.toNat ≤ 0xBF

instance (p : Pending) : Decidable p.Continues := inferInstanceAs (Decidable (_ ∧ _))

theorem first_continues (b : Byte) : (first b).2.all (·.Continues) = true := by
  have hall : ∀ n < 256, (first (UInt8.ofNat n)).2.all (·.Continues) = true := by
    decide +kernel
  have h := hall b.toNat b.toNat_lt
  rwa [UInt8.ofNat_toNat] at h

theorem step_continues (pending : Option Pending) (b : Byte) :
    (step pending b).2.all (·.Continues) = true := by
  cases pending with
  | none => exact first_continues b
  | some p =>
    rw [step]
    split
    · split
      · rfl
      · rfl
    · exact first_continues b

theorem run_continues (pending : Option Pending) (bytes : List Byte)
    (h : pending.all (·.Continues) = true) :
    (Mealy.run step pending bytes).2.all (·.Continues) = true :=
  Mealy.run_invariant (I := fun pending => pending.all (·.Continues) = true)
    (fun pending b _ => step_continues pending b) pending bytes h

/- A byte that starts something new closes the sequence under way. -/
theorem step_starts (p : Pending) (b : Byte) (hp : p.Continues) (hb : Starts b) :
    step (some p) b = (replacement :: (first b).1, (first b).2) := by
  rw [step, if_neg]
  intro hrange
  rw [byte_le_iff, byte_le_iff] at hrange
  obtain ⟨hlow, hhigh⟩ := hp
  rcases hb with hb | hb <;> omega

/- What is decoded from a state on. -/
def decodeFrom (pending : Option Pending) (bytes : List Byte) : Str :=
  (Mealy.run step pending bytes).1.flatten ++
    (if (Mealy.run step pending bytes).2.isSome then [replacement] else [])

theorem fromUtf8Lossy_eq (bytes : List Byte) : fromUtf8Lossy bytes = decodeFrom none bytes := rfl

theorem decodeFrom_append (pending : Option Pending) (bytes rest : List Byte) :
    decodeFrom pending (bytes ++ rest) =
      (Mealy.run step pending bytes).1.flatten ++
        decodeFrom (Mealy.run step pending bytes).2 rest := by
  simp only [decodeFrom, Mealy.run_append, List.flatten_append, List.append_assoc]

theorem fromUtf8Lossy_append (bytes rest : List Byte) (h : ∀ b ∈ rest.head?, Starts b) :
    fromUtf8Lossy (bytes ++ rest) = fromUtf8Lossy bytes ++ fromUtf8Lossy rest := by
  have hbytes : fromUtf8Lossy bytes = (Mealy.run step none bytes).1.flatten ++
      (if (Mealy.run step none bytes).2.isSome then [replacement] else []) := rfl
  rw [fromUtf8Lossy_eq, decodeFrom_append, hbytes, List.append_assoc]
  congr 1
  cases hstate : (Mealy.run step none bytes).2 with
  | none => rfl
  | some p =>
    have hp : p.Continues := by
      have hrun := run_continues none bytes rfl
      rw [hstate] at hrun
      simpa using hrun
    cases rest with
    | nil => rfl
    | cons b rest =>
      have hstep := step_starts p b hp (h b rfl)
      have hnone : step none b = first b := rfl
      simp only [decodeFrom, fromUtf8Lossy, Mealy.run_cons, hstep, hnone, List.flatten_cons,
        Option.isSome_some, if_true, List.cons_append, List.nil_append]

theorem fromUtf8Lossy_encode_append (s : Str) (rest : List Byte) :
    fromUtf8Lossy (encode s ++ rest) = s ++ fromUtf8Lossy rest := by
  obtain ⟨hout, hstate⟩ := run_encode s
  rw [fromUtf8Lossy_eq, decodeFrom_append, hout, hstate]
  rfl

end FsspecDb.Utf8
