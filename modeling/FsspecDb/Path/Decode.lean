import FsspecDb.Path
import FsspecDb.Utf8.Exact

/-!
# Percent decoding

`percent_decode` works on bytes. Seen from the characters it reads plus signs, escapes
and characters that stand for themselves.
-/

namespace FsspecDb
open Text Utf8

/-- The value of a hex digit. -/
def hexChar (c : Char) : Option Nat :=
  if c.toNat < 0x80 then hexDigit (UInt8.ofNat c.toNat) else none

inductive Piece where
  | plus
  | escape (b : Byte)
  | plain (c : Char)
  deriving Repr, DecidableEq

def Piece.bytes : Piece → List Byte
  | .plus => [0x20]
  | .escape b => [b]
  | .plain c => String.utf8EncodeChar c

/-- A text as `percent_decode` reads it. -/
def pieces : Str → List Piece
  | [] => []
  | '+' :: s => .plus :: pieces s
  | '%' :: a :: b :: s =>
    match hexChar a, hexChar b with
    | some high, some low => .escape (UInt8.ofNat (high * 16 + low)) :: pieces s
    | _, _ => .plain '%' :: pieces (a :: b :: s)
  | c :: s => .plain c :: pieces s

/-- A percent sign somewhere before two hex digits. -/
def hasEscape : Str → Bool
  | [] => false
  | c :: s =>
    (match s with
      | a :: b :: _ => c = '%' && (hexChar a).isSome && (hexChar b).isSome
      | _ => false) || hasEscape s

/-! ### Bytes of characters -/

theorem encodeChar_ascii (c : Char) (h : c.toNat < 0x80) :
    String.utf8EncodeChar c = [UInt8.ofNat c.toNat] := by
  rw [String.utf8EncodeChar, show c.val.toNat = c.toNat from rfl, if_pos (by omega)]

theorem encodeChar_above (c : Char) (h : 0x80 ≤ c.toNat) :
    ∀ b ∈ String.utf8EncodeChar c, 0x80 ≤ b.toNat := by
  have hbounds := char_bounds c
  have hbyte (n k : Nat) (hk : 0x80 ≤ k) (hn : n + k < 256) :
      0x80 ≤ (UInt8.ofNat (n + k)).toNat := by
    rw [toNat_ofNat _ hn]
    omega
  rw [String.utf8EncodeChar, show c.val.toNat = c.toNat from rfl, if_neg (by omega)]
  split
  · simp only [List.forall_mem_cons]
    exact ⟨hbyte _ _ (by decide) (by omega), hbyte _ _ (by decide) (by omega), by simp⟩
  · split
    · simp only [List.forall_mem_cons]
      exact ⟨hbyte _ _ (by decide) (by omega), hbyte _ _ (by decide) (by omega),
        hbyte _ _ (by decide) (by omega), by simp⟩
    · simp only [List.forall_mem_cons]
      exact ⟨hbyte _ _ (by decide) (by omega), hbyte _ _ (by decide) (by omega),
        hbyte _ _ (by decide) (by omega), hbyte _ _ (by decide) (by omega), by simp⟩

theorem hexDigit_above (b : Byte) (h : 0x80 ≤ b.toNat) : hexDigit b = none := by
  have hnot (c : Byte) (hc : c.toNat < 0x80) : ¬ b ≤ c := by
    rw [byte_le_iff]
    omega
  rw [hexDigit, if_neg fun hrange => hnot 0x39 (by decide) hrange.2,
    if_neg fun hrange => hnot 0x66 (by decide) hrange.2,
    if_neg fun hrange => hnot 0x46 (by decide) hrange.2]

theorem encode_cons (c : Char) (s : Str) : encode (c :: s) = String.utf8EncodeChar c ++ encode s :=
  rfl

/- The first byte of an encoded text is a hex digit if its first character is one. -/
theorem hexDigit_head (c : Char) (s : Str) (b : Byte) (rest : List Byte)
    (h : encode (c :: s) = b :: rest) (n : Nat) (hb : hexDigit b = some n) :
    hexChar c = some n ∧ encode s = rest := by
  rw [encode_cons] at h
  by_cases hc : c.toNat < 0x80
  · rw [encodeChar_ascii c hc, List.singleton_append] at h
    obtain ⟨rfl, rfl⟩ := List.cons.inj h
    exact ⟨by rw [hexChar, if_pos hc, hb], rfl⟩
  · have habove := encodeChar_above c (by omega)
    cases hbytes : String.utf8EncodeChar c with
    | nil => exact absurd hbytes String.utf8EncodeChar_ne_nil
    | cons first more =>
      rw [hbytes, List.cons_append] at h
      rw [hbytes] at habove
      obtain ⟨rfl, _⟩ := List.cons.inj h
      rw [hexDigit_above first (habove first (by simp))] at hb
      simp at hb

theorem encode_hexChar (c : Char) (n : Nat) (h : hexChar c = some n) :
    ∃ b, String.utf8EncodeChar c = [b] ∧ hexDigit b = some n := by
  rw [hexChar] at h
  split at h
  · next hc => exact ⟨_, encodeChar_ascii c hc, h⟩
  · simp at h

/-! ### The bytes of the pieces -/

theorem percentDecodeBytes_plain (b : Byte) (rest : List Byte) (hplus : b ≠ 0x2B)
    (hpercent : b ≠ 0x25) : percentDecodeBytes (b :: rest) = b :: percentDecodeBytes rest := by
  rw [percentDecodeBytes]
  · exact fun h => absurd h hplus
  · exact fun _ _ _ h _ => absurd h hpercent

theorem percentDecodeBytes_percent (rest : List Byte)
    (h : ∀ b₁ b₂ more, rest = b₁ :: b₂ :: more → hexDigit b₁ = none ∨ hexDigit b₂ = none) :
    percentDecodeBytes (0x25 :: rest) = 0x25 :: percentDecodeBytes rest := by
  match rest with
  | [] | [_] => rfl
  | b₁ :: b₂ :: more =>
    rw [percentDecodeBytes]
    rcases h b₁ b₂ more rfl with hnone | hnone
    · simp only [hnone]
    · cases hexDigit b₁ <;> simp only [hnone]

theorem percentDecodeBytes_append (bytes rest : List Byte)
    (h : ∀ b ∈ bytes, b ≠ 0x2B ∧ b ≠ 0x25) :
    percentDecodeBytes (bytes ++ rest) = bytes ++ percentDecodeBytes rest := by
  induction bytes with
  | nil => rfl
  | cons b bytes ih =>
    obtain ⟨hplus, hpercent⟩ := h b (by simp)
    rw [List.cons_append, percentDecodeBytes_plain b _ hplus hpercent,
      ih fun other hother => h other (by simp [hother]), List.cons_append]

theorem encodeChar_not_special (c : Char) (hplus : c ≠ '+') (hpercent : c ≠ '%') :
    ∀ b ∈ String.utf8EncodeChar c, b ≠ 0x2B ∧ b ≠ 0x25 := by
  intro b hb
  by_cases hc : c.toNat < 0x80
  · rw [encodeChar_ascii c hc, List.mem_singleton] at hb
    have hvalue := toNat_ofNat c.toNat (by omega)
    constructor
    · intro heq
      subst heq
      refine hplus (Char.toNat_inj.mp ?_)
      rw [← hvalue, ← hb]
      rfl
    · intro hsame
      subst hsame
      refine hpercent (Char.toNat_inj.mp ?_)
      rw [← hvalue, ← hb]
      rfl
  · have habove := encodeChar_above c (by omega) b hb
    constructor <;> rintro rfl <;> exact absurd habove (by decide)

theorem percentDecodeBytes_encode (s : Str) :
    percentDecodeBytes (encode s) = (pieces s).flatMap Piece.bytes := by
  fun_induction pieces s with
  | case1 => rfl
  | case2 s ih =>
    rw [List.flatMap_cons, ← ih]
    rfl
  | case3 a b s high low hlow hhigh ih =>
    obtain ⟨first, hfirst, hfirstDigit⟩ := encode_hexChar a high hhigh
    obtain ⟨second, hsecond, hsecondDigit⟩ := encode_hexChar b low hlow
    have hencode : encode ('%' :: a :: b :: s) = 0x25 :: first :: second :: encode s := by
      rw [encode_cons, encode_cons, encode_cons, hfirst, hsecond]
      rfl
    rw [hencode, percentDecodeBytes, hfirstDigit, hsecondDigit, List.flatMap_cons, ← ih]
    rfl
  | case4 a b s hnot ih =>
    rw [List.flatMap_cons, ← ih]
    refine percentDecodeBytes_percent _ fun b₁ b₂ more h => ?_
    by_contra hboth
    rw [not_or] at hboth
    obtain ⟨high, hhigh⟩ := Option.ne_none_iff_exists'.mp hboth.1
    obtain ⟨low, hlow⟩ := Option.ne_none_iff_exists'.mp hboth.2
    obtain ⟨ha, hrest⟩ := hexDigit_head a (b :: s) b₁ (b₂ :: more) h high hhigh
    obtain ⟨hb, _⟩ := hexDigit_head b s b₂ more hrest low hlow
    exact hnot high low ha hb
  | case5 c s hplus hpercent ih =>
    rw [List.flatMap_cons, ← ih, encode_cons]
    by_cases hc : c = '%'
    · rw [hc]
      refine percentDecodeBytes_percent _ fun b₁ b₂ more h => ?_
      by_contra hboth
      rw [not_or] at hboth
      obtain ⟨high, hhigh⟩ := Option.ne_none_iff_exists'.mp hboth.1
      match s with
      | [] => simp [encode] at h
      | [a] =>
        obtain ⟨_, hrest⟩ := hexDigit_head a [] b₁ (b₂ :: more) h high hhigh
        simp [encode] at hrest
      | a :: b :: s => exact hpercent a b s hc rfl
    · exact percentDecodeBytes_append _ _ (encodeChar_not_special c (fun h => hplus h) hc)

theorem percentDecode_eq (s : Str) :
    percentDecode s = fromUtf8Lossy ((pieces s).flatMap Piece.bytes) := by
  rw [percentDecode, percentDecodeBytes_encode]

/-! ### Escapes -/

/-- The escapes of other bytes than that of a percent sign. -/
def Piece.other : Piece → Bool
  | .escape b => b ≠ 0x25
  | _ => false

def otherEscapes (s : Str) : Nat := (pieces s).countP Piece.other

/-- What a piece becomes if it is not such an escape. -/
def Piece.char : Piece → Char
  | .plus => ' '
  | .escape _ => '%'
  | .plain c => c

theorem count_encodeChar (c : Char) :
    (String.utf8EncodeChar c).count 0x25 = if c = '%' then 1 else 0 := by
  split
  · next h =>
    rw [h]
    decide
  · next h =>
    by_cases hplus : c = '+'
    · rw [hplus]
      decide
    · rw [List.count_eq_zero]
      exact fun hmem => (encodeChar_not_special c hplus h 0x25 hmem).2 rfl

theorem hexChar_ne (c d : Char) (n : Nat) (h : hexChar c = some n) (hd : hexChar d = none) :
    c ≠ d := by
  intro heq
  subst heq
  simp [h] at hd

/- Only escapes of other bytes lose a percent sign. -/
theorem count_percent (s : Str) :
    s.count '%' = (percentDecode s).count '%' + otherEscapes s := by
  rw [percentDecode_eq, count_fromUtf8Lossy, otherEscapes]
  fun_induction pieces s with
  | case1 => rfl
  | case2 s ih =>
    rw [List.count_cons_of_ne (by decide), ih, List.flatMap_cons, List.count_append,
      List.countP_cons_of_neg (by simp [Piece.other])]
    simp [Piece.bytes]
  | case3 a b s high low hlow hhigh ih =>
    have ha := hexChar_ne a '%' high hhigh (by decide)
    have hb := hexChar_ne b '%' low hlow (by decide)
    rw [List.count_cons_self, List.count_cons_of_ne ha, List.count_cons_of_ne hb, ih,
      List.flatMap_cons, List.count_append, List.countP_cons]
    simp only [Piece.bytes, Piece.other, List.count_singleton, beq_iff_eq, decide_not,
      Bool.not_eq_true', decide_eq_false_iff_not]
    split <;> omega
  | case4 a b s hnot ih =>
    rw [List.count_cons_self, ih, List.flatMap_cons, List.count_append,
      List.countP_cons_of_neg (by simp [Piece.other]), Piece.bytes, count_encodeChar, if_pos rfl]
    omega
  | case5 c s hplus hpercent ih =>
    rw [List.count_cons, ih, List.flatMap_cons, List.count_append,
      List.countP_cons_of_neg (by simp [Piece.other]), Piece.bytes, count_encodeChar]
    simp only [beq_iff_eq]
    omega

theorem percentDecode_of_no_other (s : Str) (h : otherEscapes s = 0) :
    percentDecode s = (pieces s).map Piece.char := by
  have hbytes : (pieces s).flatMap Piece.bytes = encode ((pieces s).map Piece.char) := by
    rw [encode, List.flatMap_map]
    refine List.flatMap_congr fun piece hpiece => ?_
    have hother := List.countP_eq_zero.mp h piece hpiece
    cases piece with
    | plus => rfl
    | plain c => rfl
    | escape b =>
      obtain rfl : b = 0x25 := by simpa [Piece.other] using hother
      rfl
  rw [percentDecode_eq, hbytes, fromUtf8Lossy_encode]

/- A character that no escape is made of is kept. -/
theorem count_map_char (s : Str) (c : Char) (hhex : hexChar c = none) (hplus : c ≠ '+')
    (hspace : c ≠ ' ') (hpercent : c ≠ '%') :
    ((pieces s).map Piece.char).count c = s.count c := by
  fun_induction pieces s with
  | case1 => rfl
  | case2 s ih =>
    rw [List.map_cons, Piece.char, List.count_cons_of_ne hspace.symm,
      List.count_cons_of_ne hplus.symm, ih]
  | case3 a b s high low hlow hhigh ih =>
    have ha := hexChar_ne a c high hhigh hhex
    have hb := hexChar_ne b c low hlow hhex
    rw [List.map_cons, Piece.char, List.count_cons_of_ne hpercent.symm,
      List.count_cons_of_ne hpercent.symm, List.count_cons_of_ne ha, List.count_cons_of_ne hb, ih]
  | case4 a b s hnot ih => rw [List.map_cons, List.count_cons, List.count_cons, ih]; rfl
  | case5 d s _ _ ih => rw [List.map_cons, List.count_cons, List.count_cons, ih]; rfl

/-! ### Texts that decode to themselves -/

theorem length_pieces_le (s : Str) : (pieces s).length ≤ s.length := by
  fun_induction pieces s with
  | case1 => exact Nat.le_refl 0
  | case3 a b s high low hlow hhigh ih =>
    simp only [List.length_cons]
    omega
  | case2 s ih | case4 a b s hnot ih | case5 c s hplus hpercent ih =>
    simpa using ih

theorem hasEscape_cons (c a b : Char) (s : Str) :
    hasEscape (c :: a :: b :: s) =
      (c = '%' && (hexChar a).isSome && (hexChar b).isSome || hasEscape (a :: b :: s)) := rfl

theorem plain_of_map_char (s : Str) (h : (pieces s).map Piece.char = s) :
    '+' ∉ s ∧ hasEscape s = false := by
  fun_induction pieces s with
  | case1 => exact ⟨by simp, rfl⟩
  | case2 s ih => exact absurd (List.cons.inj h).1 (by decide)
  | case3 a b s high low hlow hhigh ih =>
    have hlength := congrArg List.length h
    have hle := length_pieces_le s
    simp only [List.map_cons, List.length_cons, List.length_map] at hlength
    omega
  | case4 a b s hnot ih =>
    obtain ⟨hplus, hescape⟩ := ih (List.cons.inj h).2
    refine ⟨fun hmem => ?_, ?_⟩
    · rcases List.mem_cons.mp hmem with heq | hmem
      · exact absurd heq (by decide)
      · exact hplus hmem
    · rw [hasEscape_cons, hescape, Bool.or_false]
      cases ha : hexChar a with
      | none => rfl
      | some high =>
        cases hb : hexChar b with
        | none => rfl
        | some low => exact absurd hb (hnot high low ha)
  | case5 c s hplus hpercent ih =>
    obtain ⟨ihplus, hescape⟩ := ih (List.cons.inj h).2
    refine ⟨fun hmem => ?_, ?_⟩
    · rcases List.mem_cons.mp hmem with heq | hmem
      · exact hplus heq.symm
      · exact ihplus hmem
    · match s with
      | [] | [_] => simp [hasEscape]
      | a :: b :: s =>
        have hc : c ≠ '%' := fun hc => hpercent a b s hc rfl
        rw [hasEscape_cons, hescape]
        simp [hc]

theorem pieces_of_plain (s : Str) (hplus : '+' ∉ s) (hescape : hasEscape s = false) :
    pieces s = s.map Piece.plain := by
  fun_induction pieces s with
  | case1 => rfl
  | case2 s ih => simp at hplus
  | case3 a b s high low hlow hhigh ih =>
    simp [hasEscape_cons, hhigh, hlow] at hescape
  | case4 a b s hnot ih =>
    rw [hasEscape_cons, Bool.or_eq_false_iff] at hescape
    rw [ih (fun h => hplus (List.mem_cons_of_mem _ h)) hescape.2]
    rfl
  | case5 c s hc hpercent ih =>
    have hrest : hasEscape s = false :=
      (Bool.or_eq_false_iff.mp (show (_ || hasEscape s) = false from hescape)).2
    rw [ih (fun h => hplus (List.mem_cons_of_mem _ h)) hrest]
    rfl

/-- A text stays what it is under decoding exactly if it has neither plus signs nor escapes. -/
theorem percentDecode_eq_self_iff (s : Str) :
    percentDecode s = s ↔ '+' ∉ s ∧ hasEscape s = false := by
  constructor
  · intro h
    have hcount := count_percent s
    rw [h] at hcount
    rw [percentDecode_of_no_other s (by omega)] at h
    exact plain_of_map_char s h
  · intro hgiven
    obtain ⟨hplus, hescape⟩ := hgiven
    have hbytes : (pieces s).flatMap Piece.bytes = encode s := by
      rw [pieces_of_plain s hplus hescape, List.flatMap_map]
      rfl
    rw [percentDecode_eq, hbytes, fromUtf8Lossy_encode]

end FsspecDb
