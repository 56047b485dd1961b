import Mathlib.Algebra.Ring.Int.Defs
import Mathlib.Algebra.Ring.Nat
import Mathlib.Data.List.Basic

/-!
# Text and errors

`Str` is a Rust or Python string as the list of its characters. `DbError` is
the error enumeration of `error.rs`; the payload of the wrapped errors of other
crates is their message.
-/

namespace FsspecDb

abbrev Str := List Char

abbrev Byte := UInt8

/-- `io::ErrorKind`, the kinds this crate makes or matches on. -/
inductive ErrorKind where
  | NotFound
  | PermissionDenied
  | AlreadyExists
  | InvalidInput
  | InvalidData
  | Unsupported
  | Other
  deriving Repr, DecidableEq

structure IoError where
  kind : ErrorKind
  message : Str
  deriving Repr, DecidableEq

inductive DbError where
  | NotFound (msg : Str)
  | PermissionDenied (msg : Str)
  | AlreadyExists (msg : Str)
  | NotADirectory (msg : Str)
  | IsADirectory (msg : Str)
  | InvalidArgument (msg : Str)
  | NotSupported (msg : Str)
  | Io (err : IoError)
  | Arrow (msg : Str)
  | Parquet (msg : Str)
  | Other (msg : Str)
  deriving Repr, DecidableEq

def DbError.display : DbError → Str
  | .NotFound msg => "not found: ".toList ++ msg
  | .PermissionDenied msg => "permission denied: ".toList ++ msg
  | .AlreadyExists msg => "already exists: ".toList ++ msg
  | .NotADirectory msg => "not a directory: ".toList ++ msg
  | .IsADirectory msg => "is a directory: ".toList ++ msg
  | .InvalidArgument msg => "invalid argument: ".toList ++ msg
  | .NotSupported msg => "not supported: ".toList ++ msg
  | .Io err => "I/O error: ".toList ++ err.message
  | .Arrow msg => "Arrow error: ".toList ++ msg
  | .Parquet msg => "Parquet error: ".toList ++ msg
  | .Other msg => msg

end FsspecDb
