import FsspecDb.Path.Decode
import FsspecDb.Utf8.Boundary

/-!
# Where a text may be cut before it is decoded

A character that is neither a hex digit nor a plus or percent sign is kept by
`percent_decode`, and what stands on its two sides is decoded by itself.
-/

namespace FsspecDb
open Text Utf8

/- A character that is kept, and that ends what an escape before it began. -/
def Boundary (c : Char) : Prop := hexChar c = none ∧ c ≠ '+' ∧ c ≠ '%'

instance (c : Char) : Decidable (Boundary c) := inferInstanceAs (Decidable (_ ∧ _))

/- Two bytes that are no escape together. -/
theorem hexDigit_none_or (b₁ b₂ : Byte)
    (hnot : ∀ high low, hexDigit b₁ = some high → hexDigit b₂ = some low → False) :
    hexDigit b₁ = none ∨ hexDigit b₂ = none := by
  cases hhigh : hexDigit b₁ with
  | none => exact .inl rfl
  | some high =>
    cases hlow : hexDigit b₂ with
    | none => exact .inr rfl
    | some low => exact absurd (hnot high low hhigh hlow) id

theorem percentDecodeBytes_append_digit (bytes rest : List Byte)
    (h : ∀ b ∈ rest.head?, hexDigit b = none) :
    percentDecodeBytes (bytes ++ rest) = percentDecodeBytes bytes ++ percentDecodeBytes rest := by
  fun_induction percentDecodeBytes bytes with
  | case1 => rfl
  | case2 more ih =>
    rw [List.cons_append, List.cons_append, ← ih]
    rfl
  | case3 b₁ b₂ more high low hlow hhigh ih =>
    rw [List.cons_append, List.cons_append, List.cons_append, List.cons_append, ← ih,
      percentDecodeBytes, hhigh, hlow]
  | case4 b₁ b₂ more hnot ih =>
    rw [List.cons_append, List.cons_append (a := 0x25), ← ih]
    apply percentDecodeBytes_percent
    intro c₁ c₂ tail heq
    obtain ⟨rfl, hrest⟩ := List.cons.inj heq
    obtain ⟨rfl, _⟩ := List.cons.inj hrest
    exact hexDigit_none_or _ _ hnot
  | case5 b more hplus hshort ih =>
    rw [List.cons_append, List.cons_append, ← ih]
    by_cases hpercent : b = 0x25
    · subst hpercent
      apply percentDecodeBytes_percent
      intro c₁ c₂ tail heq
      rcases more with _ | ⟨d, _ | ⟨d₂, more⟩⟩
      · rw [List.nil_append] at heq
        exact .inl (h c₁ (by rw [heq]; rfl))
      · obtain ⟨_, hrest⟩ := List.cons.inj (show d :: rest = c₁ :: c₂ :: tail from heq)
        exact .inr (h c₂ (by rw [hrest]; rfl))
      · exact absurd rfl (hshort d d₂ more rfl)
    · exact percentDecodeBytes_plain b _ hplus hpercent

theorem encodeChar_head (c : Char) (b : Byte) (more : List Byte)
    (h : String.utf8EncodeChar c = b :: more) (hc : 0x80 ≤ c.toNat) : 0xC0 ≤ b.toNat := by
  have hbounds := char_bounds c
  have hbyte (n k : Nat) (hk : 0xC0 ≤ k) (hn : n + k < 256) :
      0xC0 ≤ (UInt8.ofNat (n + k)).toNat := by
    rw [toNat_ofNat _ hn]
    omega
  rw [String.utf8EncodeChar, show c.val.toNat = c.toNat from rfl, if_neg (by omega)] at h
  split at h
  · rw [← (List.cons.inj h).1]
    exact hbyte _ _ (by decide) (by omega)
  · split at h
    · rw [← (List.cons.inj h).1]
      exact hbyte _ _ (by decide) (by omega)
    · rw [← (List.cons.inj h).1]
      exact hbyte _ _ (by decide) (by omega)

theorem Boundary.bytes {c : Char} (h : Boundary c) :
    ∃ b more, String.utf8EncodeChar c = b :: more ∧ hexDigit b = none ∧ Starts b := by
  cases hbytes : String.utf8EncodeChar c with
  | nil => exact absurd hbytes String.utf8EncodeChar_ne_nil
  | cons b more =>
    refine ⟨b, more, rfl, ?_⟩
    by_cases hc : c.toNat < 0x80
    · have hdigit := h.1
      rw [encodeChar_ascii c hc] at hbytes
      rw [hexChar, if_pos hc, (List.cons.inj hbytes).1] at hdigit
      refine ⟨hdigit, .inl ?_⟩
      rw [← (List.cons.inj hbytes).1, toNat_ofNat _ (by omega)]
      exact hc
    · have hhead := encodeChar_head c b more hbytes (by omega)
      exact ⟨hexDigit_above b (by omega), .inr hhead⟩

theorem percentDecodeBytes_boundary (c : Char) (s : Str) (h : Boundary c) :
    percentDecodeBytes (encode (c :: s)) =
      String.utf8EncodeChar c ++ percentDecodeBytes (encode s) := by
  rw [encode_cons]
  exact percentDecodeBytes_append _ _ (encodeChar_not_special c h.2.1 h.2.2)

theorem percentDecode_append (s : Str) (c : Char) (t : Str) (h : Boundary c) :
    percentDecode (s ++ c :: t) = percentDecode s ++ c :: percentDecode t := by
  have hencode : encode (s ++ c :: t) = encode s ++ encode (c :: t) := List.flatMap_append
  have hkept : fromUtf8Lossy (percentDecodeBytes (encode (c :: t))) = c :: percentDecode t := by
    have hone : String.utf8EncodeChar c = encode [c] := (List.append_nil _).symm
    rw [percentDecodeBytes_boundary c t h, hone, fromUtf8Lossy_encode_append]
    rfl
  obtain ⟨b, more, hbytes, hdigit, hstarts⟩ := h.bytes
  rw [percentDecode, hencode, percentDecodeBytes_append_digit, fromUtf8Lossy_append, hkept]
  · rfl
  · rw [percentDecodeBytes_boundary c t h, hbytes]
    intro first hfirst
    rw [← Option.some.inj hfirst]
    exact hstarts
  · rw [encode_cons, hbytes]
    intro first hfirst
    rw [← Option.some.inj hfirst]
    exact hdigit

end FsspecDb
