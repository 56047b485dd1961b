import FsspecDb.Error
import FsspecDb.Lib.Mealy

/-!
# UTF-8

`encode` is the UTF-8 of a string. `fromUtf8Lossy` is `String::from_utf8_lossy`
(and Python's `bytes.decode("utf-8", "replace")`): every maximal prefix of a
well-formed sequence that is not continued becomes one U+FFFD.
-/

namespace FsspecDb.Utf8

def encode (s : Str) : List Byte := s.flatMap String.utf8EncodeChar

def replacement : Char := Char.ofNat 0xFFFD

/-- A sequence under way: how many bytes are missing, the range the next one
must lie in, and the bits read so far. -/
structure Pending where
  missing : Nat
  low : Byte
  high : Byte
  bits : Nat
  deriving Repr, DecidableEq

def first (b : Byte) : Str × Option Pending :=
  if b ≤ 0x7F then ([Char.ofNat b.toNat], none)
  else if 0xC2 ≤ b ∧ b ≤ 0xDF then ([], some ⟨1, 0x80, 0xBF, b.toNat % 32⟩)
  else if b = 0xE0 then ([], some ⟨2, 0xA0, 0xBF, 0⟩)
  else if b = 0xED then ([], some ⟨2, 0x80, 0x9F, 13⟩)
  else if 0xE1 ≤ b ∧ b ≤ 0xEF then ([], some ⟨2, 0x80, 0xBF, b.toNat % 16⟩)
  else if b = 0xF0 then ([], some ⟨3, 0x90, 0xBF, 0⟩)
  else if 0xF1 ≤ b ∧ b ≤ 0xF3 then ([], some ⟨3, 0x80, 0xBF, b.toNat % 8⟩)
  else if b = 0xF4 then ([], some ⟨3, 0x80, 0x8F, 4⟩)
  else ([replacement], none)

/-- One byte. A byte that cannot continue the sequence under way ends it with a
replacement character and is then read as a first byte itself. -/
def step (pending : Option Pending) (b : Byte) : Str × Option Pending :=
  match pending with
  | none => first b
  | some p =>
    if p.low ≤ b ∧ b ≤ p.high then
      if p.missing = 1 then ([Char.ofNat (p.bits * 64 + b.toNat % 64)], none)
      else ([], some ⟨p.missing - 1, 0x80, 0xBF, p.bits * 64 + b.toNat % 64⟩)
    else (replacement :: (first b).1, (first b).2)

def fromUtf8Lossy (bytes : List Byte) : Str :=
  let r := Mealy.run step none bytes
  r.1.flatten ++ (if r.2.isSome then [replacement] else [])

example : fromUtf8Lossy [0x68, 0xC3, 0xA9, 0xE2, 0x82, 0x21] = ['h', 'é', replacement, '!'] := by
  decide

end FsspecDb.Utf8
