import FsspecDb.Path.Boundary
import FsspecDb.Path.Query

/-!
# How much of a text decoding keeps

An escape that two texts only make together takes three characters of them for one. So a
text that is put together weighs no more than its parts, if percent signs count, and no less,
if neither these nor hex digits do.
-/

namespace FsspecDb
open Text Utf8

/-- The characters of a decoded text that count. -/
def weight (p : Char → Bool) (text : Str) : Nat := (percentDecode text).countP p

/-- The same over the names and values of a query. -/
def queryWeight (p : Char → Bool) (pairs : List (Str × Str)) : Nat :=
  (pairs.map fun pair => pair.1.countP p + pair.2.countP p).sum

/-! ### Bytes -/

theorem hexDigit_plain (b : Byte) (n : Nat) (h : hexDigit b = some n) (rest : List Byte) :
    percentDecodeBytes (b :: rest) = b :: percentDecodeBytes rest := by
  refine percentDecodeBytes_plain b rest ?_ ?_
  · rintro rfl
    exact absurd h (by decide +revert)
  · rintro rfl
    exact absurd h (by decide +revert)

/-- What the decoded bytes of two texts are together: the one after the other, or what a percent
sign and digits from both sides make of them. -/
def Joins (left right joined : List Byte) : Prop :=
  joined = left ++ right ∨
    ∃ before digits digits' after b, joined = before ++ b :: after ∧
      left = before ++ 0x25 :: digits ∧ right = digits' ++ after ∧
      ∀ d ∈ digits ++ digits', (hexDigit d).isSome = true

theorem Joins.cons {left right joined : List Byte} (h : Joins left right joined) (b : Byte) :
    Joins (b :: left) right (b :: joined) := by
  rcases h with rfl | ⟨before, digits, digits', after, c, rfl, rfl, rfl, hdigits⟩
  · exact .inl rfl
  · exact .inr ⟨b :: before, digits, digits', after, c, rfl, rfl, rfl, hdigits⟩

/- An escape of which the first text has the percent sign, and a digit at most. -/
theorem joins_escape (more rest tail : List Byte) (b₁ b₂ : Byte) (high low : Nat)
    (hmore : ∀ d₁ d₂ after, more = d₁ :: d₂ :: after → False)
    (heq : more ++ rest = b₁ :: b₂ :: tail) (hhigh : hexDigit b₁ = some high)
    (hlow : hexDigit b₂ = some low) :
    Joins (0x25 :: percentDecodeBytes more) (percentDecodeBytes rest)
      (percentDecodeBytes (0x25 :: (more ++ rest))) := by
  have hjoined : percentDecodeBytes (0x25 :: b₁ :: b₂ :: tail) =
      UInt8.ofNat (high * 16 + low) :: percentDecodeBytes tail := by
    rw [percentDecodeBytes, hhigh, hlow]
  have hdigits : ∀ d ∈ [b₁, b₂], (hexDigit d).isSome = true := by simp [hhigh, hlow]
  rw [heq, hjoined]
  rcases more with _ | ⟨d₁, _ | ⟨d₂, after⟩⟩
  · rw [List.nil_append] at heq
    refine .inr ⟨[], [], [b₁, b₂], percentDecodeBytes tail, _, rfl, rfl, ?_, hdigits⟩
    rw [heq, hexDigit_plain b₁ high hhigh, hexDigit_plain b₂ low hlow]
    rfl
  · obtain ⟨rfl, rfl⟩ : d₁ = b₁ ∧ rest = b₂ :: tail := by simpa using heq
    refine .inr ⟨[], [d₁], [b₂], percentDecodeBytes tail, _, rfl, ?_, ?_, hdigits⟩
    · rw [hexDigit_plain d₁ high hhigh]
      rfl
    · rw [hexDigit_plain b₂ low hlow]
      rfl
  · exact absurd rfl (hmore d₁ d₂ after)

/-- Two texts are decoded one after the other, unless an escape lies across. -/
theorem percentDecodeBytes_joins (bytes rest : List Byte) :
    Joins (percentDecodeBytes bytes) (percentDecodeBytes rest)
      (percentDecodeBytes (bytes ++ rest)) := by
  fun_induction percentDecodeBytes bytes with
  | case1 => exact .inl rfl
  | case2 more ih =>
    exact ih.cons 0x20
  | case3 b₁ b₂ more high low hlow hhigh ih =>
    have hjoined : percentDecodeBytes (0x25 :: b₁ :: b₂ :: more ++ rest) =
        UInt8.ofNat (high * 16 + low) :: percentDecodeBytes (more ++ rest) := by
      rw [List.cons_append, List.cons_append, List.cons_append, percentDecodeBytes, hhigh, hlow]
    rw [hjoined]
    exact ih.cons _
  | case4 b₁ b₂ more hnot ih =>
    have hjoined : percentDecodeBytes (0x25 :: b₁ :: b₂ :: more ++ rest) =
        0x25 :: percentDecodeBytes (b₁ :: b₂ :: more ++ rest) := by
      apply percentDecodeBytes_percent
      intro c₁ c₂ tail heq
      obtain ⟨rfl, hrest⟩ := List.cons.inj heq
      obtain ⟨rfl, _⟩ := List.cons.inj hrest
      exact hexDigit_none_or _ _ hnot
    rw [hjoined]
    exact ih.cons _
  | case5 b more hplus hshort ih =>
    by_cases hpercent : b = 0x25
    · subst hpercent
      by_cases hescape : ∃ b₁ b₂ tail high low, more ++ rest = b₁ :: b₂ :: tail ∧
          hexDigit b₁ = some high ∧ hexDigit b₂ = some low
      · obtain ⟨b₁, b₂, tail, high, low, heq, hhigh, hlow⟩ := hescape
        exact joins_escape more rest tail b₁ b₂ high low
          (fun d₁ d₂ after h => hshort d₁ d₂ after rfl h) heq hhigh hlow
      · have hjoined : percentDecodeBytes (0x25 :: more ++ rest) =
            0x25 :: percentDecodeBytes (more ++ rest) := by
          apply percentDecodeBytes_percent
          intro b₁ b₂ tail heq
          exact hexDigit_none_or b₁ b₂ fun high low hhigh hlow =>
            hescape ⟨b₁, b₂, tail, high, low, heq, hhigh, hlow⟩
        rw [hjoined]
        exact ih.cons _
    · have hjoined : percentDecodeBytes (b :: more ++ rest) =
          b :: percentDecodeBytes (more ++ rest) := percentDecodeBytes_plain b _ hplus hpercent
      rw [hjoined]
      exact ih.cons _

/-! ### Texts -/

theorem encode_append (s t : Str) : encode (s ++ t) = encode s ++ encode t := List.flatMap_append

/-- A byte that stands for a character that counts. -/
def counted (p : Char → Bool) (b : Byte) : Bool := p (Char.ofNat b.toNat)

section
variable (p : Char → Bool) (hp : ∀ c, p c = true → 0 < c.toNat ∧ c.toNat < 64)
include hp

theorem weight_eq (text : Str) :
    weight p text = (percentDecodeBytes (encode text)).countP (counted p) :=
  countP_fromUtf8Lossy p hp _

/-- An escape is one character, and the percent sign was one already. -/
theorem weight_append_le (hpercent : p '%' = true) (s t : Str) :
    weight p (s ++ t) ≤ weight p s + weight p t := by
  rw [weight_eq p hp, weight_eq p hp, weight_eq p hp, encode_append]
  rcases percentDecodeBytes_joins (encode s) (encode t) with
    h | ⟨before, digits, digits', after, b, hjoined, hleft, hright, _⟩
  · rw [h, List.countP_append]
  · have hcounted : counted p 0x25 = true := hpercent
    rw [hjoined, hleft, hright, List.countP_append, List.countP_append, List.countP_append,
      List.countP_cons, List.countP_cons_of_pos hcounted]
    split <;> omega

/-- An escape has no character that counts. -/
theorem weight_append_ge (hpercent : p '%' = false)
    (hhex : ∀ b, (hexDigit b).isSome = true → counted p b = false) (s t : Str) :
    weight p s + weight p t ≤ weight p (s ++ t) := by
  rw [weight_eq p hp, weight_eq p hp, weight_eq p hp, encode_append]
  rcases percentDecodeBytes_joins (encode s) (encode t) with
    h | ⟨before, digits, digits', after, b, hjoined, hleft, hright, hdigits⟩
  · rw [h, List.countP_append]
  · have hnone (bytes : List Byte) (hbytes : ∀ d ∈ bytes, (hexDigit d).isSome = true) :
        bytes.countP (counted p) = 0 := by
      rw [List.countP_eq_zero]
      intro d hd
      rw [hhex d (hbytes d hd)]
      simp
    have hcounted : ¬ counted p 0x25 = true := by
      rw [show counted p 0x25 = p '%' from rfl, hpercent]
      simp
    rw [hjoined, hleft, hright, List.countP_append, List.countP_append, List.countP_append,
      List.countP_cons_of_neg hcounted, hnone digits fun d hd => hdigits d (by simp [hd]),
      hnone digits' fun d hd => hdigits d (by simp [hd]), List.countP_cons]
    omega

end

theorem weight_boundary (p : Char → Bool) (s : Str) (c : Char) (t : Str) (hc : Boundary c) :
    weight p (s ++ c :: t) = weight p s + ((if p c then 1 else 0) + weight p t) := by
  rw [weight, percentDecode_append s c t hc, List.countP_append, List.countP_cons, weight, weight]
  omega

/-! ### Queries -/

section
variable (p : Char → Bool) (hand : p '&' = false) (hequals : p '=' = false)
include hequals

theorem weight_decodePair_rawPair (part : Str) :
    (decodePair (rawPair part)).1.countP p + (decodePair (rawPair part)).2.countP p =
      weight p part := by
  rw [rawPair]
  cases hsplit : splitOnce part ['='] with
  | none => rfl
  | some pair =>
    obtain ⟨hpart, _⟩ := splitOnce_char_eq_some part pair.1 pair.2 '=' hsplit
    have hweight := weight_boundary p pair.1 '=' pair.2 (by decide)
    rw [← hpart, hequals] at hweight
    rw [hweight]
    exact congrArg _ (Nat.zero_add _).symm

include hand

/-- Decoding the parts of a query loses no character but the separators. -/
theorem queryWeight_decodeQuery (text : Str) :
    queryWeight p (decodeQuery text) = weight p text := by
  have hpieces := sum_pieces (weight p) '&' rfl
    (fun s t => by rw [weight_boundary p s '&' t (by decide), hand]; simp) text
  rw [queryWeight, decodeQuery, rawPairs, List.map_map, List.map_map, ← hpieces, queryParts]
  exact congrArg List.sum (List.map_congr_left fun part _ =>
    weight_decodePair_rawPair p hequals part)

end

/-! ### Slashes -/

def isSlash (c : Char) : Bool := c == '/'

theorem isSlash_low (c : Char) (h : isSlash c = true) : 0 < c.toNat ∧ c.toNat < 64 := by
  rw [eq_of_beq h]
  decide

theorem slashes_splitQuery (rest : Str) :
    queryWeight isSlash (splitQuery rest).2 ≤ weight isSlash rest := by
  rw [splitQuery_eq]
  cases hsplit : splitOnce rest ['?'] with
  | none => exact Nat.zero_le _
  | some p =>
    obtain ⟨hrest, _⟩ := splitOnce_char_eq_some rest p.1 p.2 '?' hsplit
    have hweight := weight_boundary isSlash p.1 '?' p.2 (by decide)
    have hquery := queryWeight_decodeQuery isSlash (by decide) (by decide) p.2
    rw [← hrest] at hweight
    dsimp only
    omega

/-- The slashes of a protocol are none of the query that is read behind it. -/
theorem slashes_behind_protocol (before rest : Str) :
    queryWeight isSlash (splitQuery rest).2 + 2 ≤
      weight isSlash (before ++ ':' :: '/' :: '/' :: rest) := by
  have hcolon := weight_boundary isSlash before ':' ('/' :: '/' :: rest) (by decide)
  have hfirst := weight_boundary isSlash [] '/' ('/' :: rest) (by decide)
  have hsecond := weight_boundary isSlash [] '/' rest (by decide)
  have hslash : isSlash '/' = true := rfl
  rw [hslash, if_pos rfl, List.nil_append] at hfirst hsecond
  have hle := slashes_splitQuery rest
  omega

end FsspecDb
