import FsspecDb.Error
import Mathlib.Data.List.Infix
import Mathlib.Data.List.DropRight

/-!
# String functions

The methods of Rust's `str` and Python's `str` that the crate calls, under
their own names where the two agree.
-/

namespace FsspecDb.Text

def contains (s pattern : Str) : Bool := decide (pattern <:+: s)

def toAsciiLowercase (s : Str) : Str := s.map Char.toLower

def toAsciiUppercase (s : Str) : Str := s.map Char.toUpper

/-- `str::split_once`: the text before and after the first occurrence. -/
def splitOnce (s separator : Str) : Option (Str × Str) :=
  match s with
  | [] => if separator.isEmpty then some ([], []) else none
  | c :: cs =>
    if separator.isPrefixOf (c :: cs) then some ([], (c :: cs).drop separator.length)
    else (splitOnce cs separator).map fun p => (c :: p.1, p.2)

/-- `str::rsplit_once` on a character: the text before and after the last one. -/
def rsplitOnce (s : Str) (separator : Char) : Option (Str × Str) :=
  match s with
  | [] => none
  | c :: cs =>
    match rsplitOnce cs separator with
    | some (before, after) => some (c :: before, after)
    | none => if c = separator then some ([], cs) else none

/-- `char::is_whitespace`: the Unicode property White_Space. -/
def isWhitespace (c : Char) : Bool :=
  let n := c.toNat
  (9 ≤ n && n ≤ 13) || n = 32 || n = 0x85 || n = 0xA0 || n = 0x1680 ||
    (0x2000 ≤ n && n ≤ 0x200A) || n = 0x2028 || n = 0x2029 || n = 0x202F || n = 0x205F ||
    n = 0x3000

def trim (s : Str) : Str := (s.dropWhile isWhitespace).rdropWhile isWhitespace

/-- `str::trim_matches` on one character, Python's `str.strip` of it. -/
def strip (s : Str) (c : Char) : Str := (s.dropWhile (· == c)).rdropWhile (· == c)

/-- `str::trim_start_matches` on one character. -/
def trimStartMatches (s : Str) (c : Char) : Str := s.dropWhile (· == c)

def replace (s : Str) (c : Char) (by' : Str) : Str :=
  s.flatMap fun d => if d = c then by' else [d]

def join (separator : Str) (parts : List Str) : Str := separator.intercalate parts

end FsspecDb.Text
