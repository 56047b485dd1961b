import FsspecDb.Path.Boundary
import Mathlib.Data.List.SplitBy

/-!
# Python's query strings (urllib.parse)

`urlencode` and `parse_qsl` as the standard library has them, on text without surrogates.
`unquote` decodes every run of ASCII characters by itself; `percent_decode` gives the same.
-/

namespace FsspecDb.Urllib
open Text

/-! ### Writing -/

/-- `_ALWAYS_SAFE`: letters, digits and four more. -/
def alwaysSafe (b : Byte) : Bool :=
  (0x41 ≤ b && b ≤ 0x5A) || (0x61 ≤ b && b ≤ 0x7A) || (0x30 ≤ b && b ≤ 0x39) || b = 0x5F ||
    b = 0x2E || b = 0x2D || b = 0x7E

/-- A digit of `{:02X}`. -/
def upperHex (n : Nat) : Char := if n < 10 then Char.ofNat (0x30 + n) else Char.ofNat (0x37 + n)

/-- `_Quoter.__missing__`. -/
def quoter (safe : List Byte) (b : Byte) : Str :=
  if alwaysSafe b || safe.contains b then [Char.ofNat b.toNat]
  else ['%', upperHex (b.toNat / 16), upperHex (b.toNat % 16)]

def quote (safe : List Byte) (s : Str) : Str := (Utf8.encode s).flatMap (quoter safe)

def quotePlus (s : Str) : Str :=
  if ' ' ∈ s then replace (quote [0x20] s) ' ' ['+'] else quote [] s

def urlencode (query : List (Str × Str)) : Str :=
  join ['&'] (query.map fun (key, value) => quotePlus key ++ '=' :: quotePlus value)

/-! ### Reading -/

/-- `_hextobyte`: two hex digits of either case. -/
def hexToByte : List Byte → Option Byte
  | [high, low] =>
    match hexDigit high, hexDigit low with
    | some high, some low => some (UInt8.ofNat (high * 16 + low))
    | _, _ => none
  | _ => none

/- An item between percent signs, which has lost the one before it. -/
def unquoteItem (item : List Byte) : List Byte :=
  match hexToByte (item.take 2) with
  | some b => b :: item.drop 2
  | none => 0x25 :: item

def unquoteItems : List (List Byte) → List Byte
  | [] => []
  | first :: items => first ++ items.flatMap unquoteItem

/-- `unquote_to_bytes` on the encoded string. -/
def unquoteToBytes (string : List Byte) : List Byte := unquoteItems (string.splitOn 0x25)

def isAscii (c : Char) : Bool := c.toNat < 0x80

/-- `unquote`. The regular expression splits between ASCII characters and others. -/
def unquote (string : Str) : Str :=
  if '%' ∈ string then
    (string.splitBy fun a b => isAscii a == isAscii b).flatMap fun run =>
      if run.all isAscii then Utf8.fromUtf8Lossy (unquoteToBytes (Utf8.encode run)) else run
  else string

/-- `parse_qsl` with `keep_blank_values=True`. -/
def parseQsl (qs : Str) : List (Str × Str) :=
  ((qs.splitOn '&').filter fun part => !part.isEmpty).map fun part =>
    let (name, value) := (splitOnce part ['=']).getD (part, [])
    (unquote (replace name '+' [' ']), unquote (replace value '+' [' ']))

/-! ### Splitting at percent signs -/

theorem unquoteItems_cons (b : Byte) (items : List (List Byte)) (hne : items ≠ []) :
    unquoteItems (items.modifyHead (List.cons b)) = b :: unquoteItems items := by
  cases items with
  | nil => exact absurd rfl hne
  | cons first items => rfl

/- The item before the first percent sign is a beginning of the text. -/
theorem splitOn_head_begins (bytes first : List Byte) (items : List (List Byte))
    (h : bytes.splitOn 0x25 = first :: items) : first <+: bytes := by
  have hjoin : [(0x25 : Byte)].intercalate (first :: items) = bytes := by
    rw [← h]
    exact List.intercalate_splitOn 0x25
  cases items with
  | nil => exact ⟨[], by simpa [List.intercalate] using hjoin⟩
  | cons next items => exact ⟨_, by simpa [List.intercalate] using hjoin⟩

theorem hexToByte_take (first bytes : List Byte) (hbegins : first <+: bytes)
    (hnot : ∀ b₁ b₂ more, bytes = b₁ :: b₂ :: more → hexDigit b₁ = none ∨ hexDigit b₂ = none) :
    hexToByte (first.take 2) = none := by
  obtain ⟨tail, htail⟩ := hbegins
  match first with
  | [] | [_] => rfl
  | b₁ :: b₂ :: more =>
    rcases hnot b₁ b₂ (more ++ tail) htail.symm with hnone | hnone
    · simp [hexToByte, hnone]
    · cases hhigh : hexDigit b₁ <;> simp [hexToByte, hnone, hhigh]

/- A percent sign that starts no escape. -/
theorem unquoteToBytes_percent (bytes : List Byte)
    (hnot : ∀ b₁ b₂ more, bytes = b₁ :: b₂ :: more → hexDigit b₁ = none ∨ hexDigit b₂ = none) :
    unquoteToBytes (0x25 :: bytes) = 0x25 :: unquoteToBytes bytes := by
  unfold unquoteToBytes
  rw [List.splitOn_cons_eq_if_modifyHead, if_pos (by decide)]
  cases hsplit : bytes.splitOn 0x25 with
  | nil => exact absurd hsplit (List.splitOn_ne_nil _ _)
  | cons first items =>
    have hitem := hexToByte_take first bytes (splitOn_head_begins bytes first items hsplit) hnot
    simp only [unquoteItems, List.flatMap_cons, unquoteItem, hitem, List.nil_append,
      List.cons_append]

theorem unquoteToBytes_plain (b : Byte) (bytes : List Byte) (hb : b ≠ 0x25) :
    unquoteToBytes (b :: bytes) = b :: unquoteToBytes bytes := by
  unfold unquoteToBytes
  rw [List.splitOn_cons_eq_if_modifyHead, if_neg (by simpa using hb),
    unquoteItems_cons _ _ (List.splitOn_ne_nil _ _)]

theorem hexDigit_ne_percent (b : Byte) (n : Nat) (h : hexDigit b = some n) : b ≠ 0x25 := by
  intro heq
  have hnone : hexDigit 0x25 = none := by decide
  rw [heq, hnone] at h
  cases h

theorem unquoteToBytes_escape (b₁ b₂ : Byte) (bytes : List Byte) (high low : Nat)
    (hhigh : hexDigit b₁ = some high) (hlow : hexDigit b₂ = some low) :
    unquoteToBytes (0x25 :: b₁ :: b₂ :: bytes) =
      UInt8.ofNat (high * 16 + low) :: unquoteToBytes bytes := by
  have h₁ := hexDigit_ne_percent b₁ high hhigh
  have h₂ := hexDigit_ne_percent b₂ low hlow
  unfold unquoteToBytes
  rw [List.splitOn_cons_eq_if_modifyHead, if_pos (by decide), List.splitOn_cons_eq_if_modifyHead,
    if_neg (by simpa using h₁), List.splitOn_cons_eq_if_modifyHead, if_neg (by simpa using h₂)]
  cases hsplit : bytes.splitOn 0x25 with
  | nil => exact absurd hsplit (List.splitOn_ne_nil _ _)
  | cons first items =>
    simp only [List.modifyHead_cons, unquoteItems, List.flatMap_cons, unquoteItem, List.take,
      hexToByte, hhigh, hlow, List.drop, List.nil_append, List.cons_append]

/-- Where no plus sign is left, Python decodes bytes as `percent_decode` does. -/
theorem unquoteToBytes_eq (bytes : List Byte) (hplus : 0x2B ∉ bytes) :
    unquoteToBytes bytes = percentDecodeBytes bytes := by
  fun_induction percentDecodeBytes bytes with
  | case1 => rfl
  | case2 rest ih => simp at hplus
  | case3 b₁ b₂ rest high low hlow hhigh ih =>
    rw [unquoteToBytes_escape b₁ b₂ rest high low hhigh hlow,
      ih (fun h => hplus (by simp [h]))]
  | case4 b₁ b₂ rest hnot ih =>
    rw [unquoteToBytes_percent, ih (fun h => hplus (List.mem_cons_of_mem _ h))]
    intro c₁ c₂ more heq
    obtain ⟨rfl, hrest⟩ := List.cons.inj heq
    obtain ⟨rfl, _⟩ := List.cons.inj hrest
    exact hexDigit_none_or _ _ hnot
  | case5 b rest hb hshort ih =>
    have hrest : 0x2B ∉ rest := fun h => hplus (List.mem_cons_of_mem _ h)
    by_cases hpercent : b = 0x25
    · subst hpercent
      rw [unquoteToBytes_percent, ih hrest]
      intro c₁ c₂ more heq
      exact absurd heq (fun heq => hshort c₁ c₂ more rfl heq)
    · rw [unquoteToBytes_plain b rest hpercent, ih hrest]

end FsspecDb.Urllib
