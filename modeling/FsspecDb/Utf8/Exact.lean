import FsspecDb.Utf8
import Mathlib.Tactic.IntervalCases

/-!
# Decoding what was encoded

`fromUtf8Lossy` gives back what was encoded, and it makes a percent sign only of the
byte of one.
-/

namespace FsspecDb.Utf8

theorem byte_le_iff (a b : Byte) : a ≤ b ↔ a.toNat ≤ b.toNat := UInt8.le_iff_toNat_le

theorem toNat_ofNat (n : Nat) (h : n < 256) : (UInt8.ofNat n).toNat = n :=
  UInt8.toNat_ofNat_of_lt' h

/-! ### First bytes -/

theorem first_one (b : Byte) (h : b.toNat ≤ 0x7F) : first b = ([Char.ofNat b.toNat], none) :=
  if_pos ((byte_le_iff b 0x7F).mpr h)

theorem first_two (b : Byte) (hlow : 0xC2 ≤ b.toNat) (hhigh : b.toNat ≤ 0xDF) :
    first b = ([], some ⟨1, 0x80, 0xBF, b.toNat % 32⟩) := by
  rw [first, if_neg, if_pos]
  · exact ⟨(byte_le_iff 0xC2 b).mpr hlow, (byte_le_iff b 0xDF).mpr hhigh⟩
  · rw [byte_le_iff]
    exact Nat.not_le.mpr (Nat.lt_of_lt_of_le (by decide) hlow)

theorem first_three (b : Byte) (hlow : 0xE0 ≤ b.toNat) (hhigh : b.toNat ≤ 0xEF) :
    first b = ([], some ⟨2, if b.toNat = 0xE0 then 0xA0 else 0x80,
      if b.toNat = 0xED then 0x9F else 0xBF, b.toNat % 16⟩) := by
  have hb : b = UInt8.ofNat b.toNat := UInt8.ofNat_toNat.symm
  generalize b.toNat = n at hlow hhigh hb ⊢
  rw [hb]
  interval_cases n <;> rfl

theorem first_four (b : Byte) (hlow : 0xF0 ≤ b.toNat) (hhigh : b.toNat ≤ 0xF4) :
    first b = ([], some ⟨3, if b.toNat = 0xF0 then 0x90 else 0x80,
      if b.toNat = 0xF4 then 0x8F else 0xBF, b.toNat % 8⟩) := by
  have hb : b = UInt8.ofNat b.toNat := UInt8.ofNat_toNat.symm
  generalize b.toNat = n at hlow hhigh hb ⊢
  rw [hb]
  interval_cases n <;> rfl

/-! ### Further bytes -/

theorem step_last (low high b : Byte) (bits : Nat) (hlow : low ≤ b) (hhigh : b ≤ high) :
    step (some ⟨1, low, high, bits⟩) b = ([Char.ofNat (bits * 64 + b.toNat % 64)], none) := by
  rw [step, if_pos ⟨hlow, hhigh⟩, if_pos rfl]

theorem step_more (missing : Nat) (low high b : Byte) (bits : Nat) (hlow : low ≤ b)
    (hhigh : b ≤ high) :
    step (some ⟨missing + 2, low, high, bits⟩) b =
      ([], some ⟨missing + 1, 0x80, 0xBF, bits * 64 + b.toNat % 64⟩) := by
  rw [step, if_pos ⟨hlow, hhigh⟩, if_neg (by simp)]
  rfl

/-- A continuation byte of six bits. -/
theorem continuation (n : Nat) :
    (0x80 : Byte) ≤ UInt8.ofNat (n % 0x40 + 0x80) ∧ UInt8.ofNat (n % 0x40 + 0x80) ≤ (0xBF : Byte) ∧
      (UInt8.ofNat (n % 0x40 + 0x80)).toNat = n % 0x40 + 0x80 := by
  have hlt := Nat.mod_lt n (show 0 < 0x40 by decide)
  have hvalue := toNat_ofNat (n % 0x40 + 0x80) (by omega)
  rw [byte_le_iff, byte_le_iff, hvalue]
  exact ⟨Nat.le_add_left .., by show n % 0x40 + 0x80 ≤ 0xBF; omega, rfl⟩

theorem char_bounds (c : Char) : c.toNat < 0x110000 ∧ (c.toNat < 0xD800 ∨ 0xDFFF < c.toNat) := by
  have h := c.valid
  rw [UInt32.isValidChar, Nat.isValidChar] at h
  have hval : c.val.toNat = c.toNat := rfl
  omega

/- The second of three bytes: after E0 and ED it is bounded by the first. -/
theorem second_three (n : Nat) (hlow : 0x7FF < n) (hhigh : n ≤ 0xFFFF)
    (hsurrogate : n < 0xD800 ∨ 0xDFFF < n) :
    (if n / 4096 % 0x10 + 0xE0 = 0xE0 then (0xA0 : Byte) else 0x80) ≤
        UInt8.ofNat (n / 64 % 0x40 + 0x80) ∧
      UInt8.ofNat (n / 64 % 0x40 + 0x80) ≤
        if n / 4096 % 0x10 + 0xE0 = 0xED then (0x9F : Byte) else 0xBF := by
  have hvalue := (continuation (n / 64)).2.2
  rw [byte_le_iff, byte_le_iff, hvalue]
  constructor
  · split
    · show 0xA0 ≤ n / 64 % 0x40 + 0x80
      omega
    · exact Nat.le_add_left ..
  · split
    · show n / 64 % 0x40 + 0x80 ≤ 0x9F
      omega
    · show n / 64 % 0x40 + 0x80 ≤ 0xBF
      omega

/- The second of four bytes: after F0 and F4 it is bounded by the first. -/
theorem second_four (n : Nat) (hlow : 0xFFFF < n) (hhigh : n < 0x110000) :
    (if n / 262144 % 0x08 + 0xF0 = 0xF0 then (0x90 : Byte) else 0x80) ≤
        UInt8.ofNat (n / 4096 % 0x40 + 0x80) ∧
      UInt8.ofNat (n / 4096 % 0x40 + 0x80) ≤
        if n / 262144 % 0x08 + 0xF0 = 0xF4 then (0x8F : Byte) else 0xBF := by
  have hvalue := (continuation (n / 4096)).2.2
  rw [byte_le_iff, byte_le_iff, hvalue]
  constructor
  · split
    · show 0x90 ≤ n / 4096 % 0x40 + 0x80
      omega
    · exact Nat.le_add_left ..
  · split
    · show n / 4096 % 0x40 + 0x80 ≤ 0x8F
      omega
    · show n / 4096 % 0x40 + 0x80 ≤ 0xBF
      omega

/-! ### One character -/

theorem run_two (n : Nat) (hlow : 0x7F < n) (hhigh : n ≤ 0x7FF) :
    Mealy.run step none [UInt8.ofNat (n / 64 % 0x20 + 0xC0), UInt8.ofNat (n % 0x40 + 0x80)] =
      ([[], [Char.ofNat n]], none) := by
  obtain ⟨hl, hh, hlast⟩ := continuation n
  have hb := toNat_ofNat (n / 64 % 0x20 + 0xC0) (by omega)
  have hfirst := first_two (UInt8.ofNat (n / 64 % 0x20 + 0xC0)) (by omega) (by omega)
  have hvalue : (n / 64 % 0x20 + 0xC0) % 32 * 64 + (n % 0x40 + 0x80) % 64 = n := by omega
  simp only [Mealy.run_cons, Mealy.run_nil]
  rw [show step none = first from rfl, hfirst, step_last _ _ _ _ hl hh, hlast, hb, hvalue]

theorem run_three (n : Nat) (hlow : 0x7FF < n) (hhigh : n ≤ 0xFFFF)
    (hsurrogate : n < 0xD800 ∨ 0xDFFF < n) :
    Mealy.run step none [UInt8.ofNat (n / 4096 % 0x10 + 0xE0),
        UInt8.ofNat (n / 64 % 0x40 + 0x80), UInt8.ofNat (n % 0x40 + 0x80)] =
      ([[], [], [Char.ofNat n]], none) := by
  obtain ⟨hl, hh, hlast⟩ := continuation n
  obtain ⟨hl', hh'⟩ := second_three n hlow hhigh hsurrogate
  have hb := toNat_ofNat (n / 4096 % 0x10 + 0xE0) (by omega)
  have hfirst := first_three (UInt8.ofNat (n / 4096 % 0x10 + 0xE0)) (by omega) (by omega)
  have hvalue : ((n / 4096 % 0x10 + 0xE0) % 16 * 64 + (n / 64 % 0x40 + 0x80) % 64) * 64 +
      (n % 0x40 + 0x80) % 64 = n := by omega
  simp only [Mealy.run_cons, Mealy.run_nil]
  rw [show step none = first from rfl, hfirst, hb, step_more 0 _ _ _ _ hl' hh',
    step_last _ _ _ _ hl hh, hlast, (continuation (n / 64)).2.2, hvalue]

theorem run_four (n : Nat) (hlow : 0xFFFF < n) (hhigh : n < 0x110000) :
    Mealy.run step none [UInt8.ofNat (n / 262144 % 0x08 + 0xF0),
        UInt8.ofNat (n / 4096 % 0x40 + 0x80), UInt8.ofNat (n / 64 % 0x40 + 0x80),
        UInt8.ofNat (n % 0x40 + 0x80)] =
      ([[], [], [], [Char.ofNat n]], none) := by
  obtain ⟨hl, hh, hlast⟩ := continuation n
  obtain ⟨hl', hh', hmiddle⟩ := continuation (n / 64)
  obtain ⟨hl'', hh''⟩ := second_four n hlow hhigh
  have hb := toNat_ofNat (n / 262144 % 0x08 + 0xF0) (by omega)
  have hfirst := first_four (UInt8.ofNat (n / 262144 % 0x08 + 0xF0)) (by omega) (by omega)
  have hvalue : (((n / 262144 % 0x08 + 0xF0) % 8 * 64 + (n / 4096 % 0x40 + 0x80) % 64) * 64 +
      (n / 64 % 0x40 + 0x80) % 64) * 64 + (n % 0x40 + 0x80) % 64 = n := by omega
  simp only [Mealy.run_cons, Mealy.run_nil]
  rw [show step none = first from rfl, hfirst, hb, step_more 1 _ _ _ _ hl'' hh'',
    step_more 0 _ _ _ _ hl' hh', step_last _ _ _ _ hl hh, hlast, hmiddle,
    (continuation (n / 4096)).2.2, hvalue]

theorem run_encodeChar (c : Char) :
    (Mealy.run step none (String.utf8EncodeChar c)).1.flatten = [c] ∧
      (Mealy.run step none (String.utf8EncodeChar c)).2 = none := by
  obtain ⟨hmax, hsurrogate⟩ := char_bounds c
  have hencode : String.utf8EncodeChar c =
      if c.toNat ≤ 0x7F then [UInt8.ofNat c.toNat]
      else if c.toNat ≤ 0x7FF then
        [UInt8.ofNat (c.toNat / 64 % 0x20 + 0xC0), UInt8.ofNat (c.toNat % 0x40 + 0x80)]
      else if c.toNat ≤ 0xFFFF then
        [UInt8.ofNat (c.toNat / 4096 % 0x10 + 0xE0), UInt8.ofNat (c.toNat / 64 % 0x40 + 0x80),
          UInt8.ofNat (c.toNat % 0x40 + 0x80)]
      else
        [UInt8.ofNat (c.toNat / 262144 % 0x08 + 0xF0), UInt8.ofNat (c.toNat / 4096 % 0x40 + 0x80),
          UInt8.ofNat (c.toNat / 64 % 0x40 + 0x80), UInt8.ofNat (c.toNat % 0x40 + 0x80)] := rfl
  rw [hencode]
  split_ifs with h1 h2 h3
  · have hb := toNat_ofNat c.toNat (by omega)
    simp only [Mealy.run_cons, Mealy.run_nil, step, first_one _ (hb.le.trans h1), hb,
      Char.ofNat_toNat]
    exact ⟨rfl, trivial⟩
  · rw [run_two c.toNat (by omega) h2, Char.ofNat_toNat]
    exact ⟨rfl, rfl⟩
  · rw [run_three c.toNat (by omega) h3 hsurrogate, Char.ofNat_toNat]
    exact ⟨rfl, rfl⟩
  · rw [run_four c.toNat (by omega) hmax, Char.ofNat_toNat]
    exact ⟨rfl, rfl⟩

theorem run_encode (s : Str) :
    (Mealy.run step none (encode s)).1.flatten = s ∧ (Mealy.run step none (encode s)).2 = none := by
  induction s with
  | nil => exact ⟨rfl, rfl⟩
  | cons c s ih =>
    obtain ⟨hout, hstate⟩ := run_encodeChar c
    rw [encode, List.flatMap_cons, ← encode, Mealy.run_append, hstate]
    exact ⟨by rw [List.flatten_append, hout, ih.1]; rfl, ih.2⟩

theorem fromUtf8Lossy_encode (s : Str) : fromUtf8Lossy (encode s) = s := by
  obtain ⟨hout, hstate⟩ := run_encode s
  simp only [fromUtf8Lossy, hout, hstate]
  simp

/-! ### Counting characters below U+0040 -/

/-- A sequence under way that cannot end in such a character. -/
def Pending.Sound (p : Pending) : Prop :=
  0x80 ≤ p.low.toNat ∧
    (1 ≤ p.bits ∨ 0x90 ≤ p.low.toNat ∧ p.high.toNat ≤ 0xBF ∧ 2 ≤ p.missing)

instance (p : Pending) : Decidable p.Sound := inferInstanceAs (Decidable (_ ∧ _))

theorem first_sound (b : Byte) : (first b).2.all (·.Sound) = true := by
  have hall : ∀ n < 256, (first (UInt8.ofNat n)).2.all (·.Sound) = true := by
    decide +kernel
  have h := hall b.toNat b.toNat_lt
  rwa [UInt8.ofNat_toNat] at h

/- A byte above ASCII gives nothing or a replacement character. -/
theorem first_above (b : Byte) (h : ¬ b ≤ 0x7F) :
    (first b).1 = [] ∨ (first b).1 = [replacement] := by
  rw [first, if_neg h]
  split_ifs
  all_goals
    first
    | exact .inl rfl
    | exact .inr rfl

section
variable (p : Char → Bool) (hp : ∀ c, p c = true → 0 < c.toNat ∧ c.toNat < 64)
include hp

theorem not_counted (n : Nat) (h : 64 ≤ n) : p (Char.ofNat n) = false := by
  cases hc : p (Char.ofNat n) with
  | false => rfl
  | true =>
    obtain ⟨hpos, hlow⟩ := hp _ hc
    by_cases hvalid : n.isValidChar
    · rw [Char.ofNat, dif_pos hvalid] at hlow
      have hn : n < 64 := hlow
      omega
    · rw [Char.ofNat, dif_neg hvalid] at hpos
      exact absurd hpos (by decide)

theorem countP_first (b : Byte) :
    (first b).1.countP p = if p (Char.ofNat b.toNat) then 1 else 0 := by
  by_cases hascii : b ≤ 0x7F
  · rw [first, if_pos hascii, List.countP_singleton]
  · have habove : 64 ≤ b.toNat := by
      rw [byte_le_iff] at hascii
      have hlimit : (0x7F : Byte).toNat = 127 := rfl
      omega
    have hreplacement := not_counted p hp 0xFFFD (by decide)
    rw [not_counted p hp b.toNat habove]
    rcases first_above b hascii with hnone | hone
    · rw [hnone]
      rfl
    · rw [hone, List.countP_singleton, replacement, hreplacement]

theorem countP_step (pending : Option Pending) (b : Byte) (h : pending.all (·.Sound) = true) :
    (step pending b).1.countP p = (if p (Char.ofNat b.toNat) then 1 else 0) ∧
      (step pending b).2.all (·.Sound) = true := by
  cases pending with
  | none => exact ⟨countP_first p hp b, first_sound b⟩
  | some q =>
    obtain ⟨missing, low, high, bits⟩ := q
    obtain ⟨hlow, hbits⟩ : 0x80 ≤ low.toNat ∧
        (1 ≤ bits ∨ 0x90 ≤ low.toNat ∧ high.toNat ≤ 0xBF ∧ 2 ≤ missing) := of_decide_eq_true h
    rw [step]
    by_cases hrange : low ≤ b ∧ b ≤ high
    · rw [if_pos hrange]
      rw [byte_le_iff, byte_le_iff] at hrange
      rw [not_counted p hp b.toNat (by omega)]
      by_cases hlast : missing = 1
      · have hchar := not_counted p hp (bits * 64 + b.toNat % 64) (by omega)
        rw [if_pos hlast]
        exact ⟨by simp [hchar], rfl⟩
      · rw [if_neg hlast]
        refine ⟨rfl, ?_⟩
        have hmore : 1 ≤ bits * 64 + b.toNat % 64 := by omega
        simp [Pending.Sound, hmore]
    · have hreplacement : p replacement = false := not_counted p hp 0xFFFD (by decide)
      rw [if_neg hrange, List.countP_cons_of_neg (by simp [hreplacement])]
      exact ⟨countP_first p hp b, first_sound b⟩

theorem countP_run (pending : Option Pending) (bytes : List Byte)
    (h : pending.all (·.Sound) = true) :
    (Mealy.run step pending bytes).1.flatten.countP p =
      bytes.countP fun b => p (Char.ofNat b.toNat) := by
  induction bytes generalizing pending with
  | nil => rfl
  | cons b bytes ih =>
    obtain ⟨hcount, hsound⟩ := countP_step p hp pending b h
    rw [Mealy.run_cons, List.flatten_cons, List.countP_append, hcount, ih _ hsound,
      List.countP_cons]
    omega

/-- Such characters are as many as the bytes that stand for them. -/
theorem countP_fromUtf8Lossy (bytes : List Byte) :
    (fromUtf8Lossy bytes).countP p = bytes.countP fun b => p (Char.ofNat b.toNat) := by
  have hreplacement : p replacement = false := not_counted p hp 0xFFFD (by decide)
  have htail (pending : Option Pending) :
      (if pending.isSome then [replacement] else []).countP p = 0 := by
    split
    · simp [hreplacement]
    · rfl
  simp only [fromUtf8Lossy]
  rw [List.countP_append, countP_run p hp none bytes rfl, htail, Nat.add_zero]

end

theorem count_fromUtf8Lossy (bytes : List Byte) :
    (fromUtf8Lossy bytes).count '%' = bytes.count 0x25 := by
  have hpercent : ∀ c, (c == '%') = true → 0 < c.toNat ∧ c.toNat < 64 := by
    intro c hc
    rw [eq_of_beq hc]
    decide
  have hbyte (b : Byte) : (Char.ofNat b.toNat == '%') = (b == 0x25) := by
    have hall : ∀ n < 256, (Char.ofNat (UInt8.ofNat n).toNat == '%') = (UInt8.ofNat n == 0x25) := by
      decide +kernel
    have h := hall b.toNat b.toNat_lt
    rwa [UInt8.ofNat_toNat] at h
  rw [List.count, List.count, countP_fromUtf8Lossy _ hpercent]
  exact List.countP_congr fun b _ => by rw [hbyte]

end FsspecDb.Utf8
