import BasicCli.IOErr.Basic

/-!
# Paths as byte lists

`crates/roc_file` and `crates/roc_env` hand paths to Roc as `List(U8)` and take them back in the
same form.  `os_str_to_roc_path` and `path_from_roc_path` are compiled once for each target
family; the Windows ones are described for a little-endian machine.
-/

namespace BasicCli

/-- The target family a host is compiled for. -/
inductive TargetFamily
  | unix
  | windows
deriving DecidableEq, Repr

/-- An `OsStr`: bytes on Unix, 16-bit units on Windows.  The latter need not be valid UTF-16;
`OsString::from_wide` and `OsStr::encode_wide` keep every sequence of units. -/
abbrev OsStr : TargetFamily → Type
  | .unix => List UInt8
  | .windows => List UInt16

/-- `u16::to_be_bytes`. -/
def toBeBytes (c : UInt16) : List UInt8 := [.ofNat (c.toNat / 256), .ofNat (c.toNat % 256)]

/-- The `u16` that a little-endian machine finds in two adjacent bytes. -/
def u16OfLeBytes (b₀ b₁ : UInt8) : UInt16 := .ofNat (b₀.toNat + 256 * b₁.toNat)

/-- `std::slice::from_raw_parts(bytes.as_ptr().cast(), bytes.len() / 2)` at type `u16`. -/
def castToU16 : List UInt8 → List UInt16
  | b₀ :: b₁ :: rest => u16OfLeBytes b₀ b₁ :: castToU16 rest
  | _ => []

/-- `os_str_to_roc_path`. -/
def osStrToRocPath : (t : TargetFamily) → OsStr t → List UInt8
  | .unix, osStr => osStr
  -- `to_be_bytes` puts the high byte first, the cast in `path_from_roc_path` the low one.
  | .windows, osStr => osStr.flatMap toBeBytes

/-- `path_from_roc_path`; `none` is the failed assertion on the length. -/
def pathFromRocPath : (t : TargetFamily) → List UInt8 → Option (OsStr t)
  | .unix, bytes => some bytes
  | .windows, bytes => if bytes.length % 2 = 0 then some (castToU16 bytes) else none

section

variable {t : TargetFamily} {E : Type} (into : IoError → E) (newOther : String → E)

/-- `dir_list` of a path, with what `is_dir` and `read_dir` answer for it.  `E` is the `IOErr` that
the crate was written for, built by `into` and `newOther`. -/
def dirList (isDir : Bool) (readDir : Except IoError (List (Except IoError (OsStr t)))) :
    Except E (List (List UInt8)) :=
  if isDir then
    match readDir with
    | .error err => .error (into err)
    | .ok dir => .ok ((dir.filterMap Except.toOption).map (osStrToRocPath t))
  else .error (newOther "NotADirectory")

/-- `cwd`, with what `current_dir` answers.  Without a working directory it is the empty path. -/
def cwd (currentDir : Except IoError (OsStr t)) : List UInt8 :=
  match currentDir with
  | .ok path => osStrToRocPath t path
  | .error _ => []

/-- `exe_path`, with what `current_exe` answers. -/
def exePath (currentExe : Except IoError (OsStr t)) : Except Unit (List UInt8) :=
  match currentExe with
  | .ok path => .ok (osStrToRocPath t path)
  | .error _ => .error ()

end

end BasicCli
