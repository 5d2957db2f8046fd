import BasicCli.Command.Output
import BasicCli.Path.Basic
import Mathlib.Data.List.DropRight

/-!
# Text from the host

The hosted functions of `src/lib.rs` that hand text of the outside world to Roc, each with what the
world answers as an argument.
-/

namespace BasicCli

/-! ### `OsStr` -/

/-- The characters of UTF-16, with `none` for each unpaired surrogate. -/
def decodeUtf16 : List UInt16 → List (Option Char)
  | [] => []
  | [u] => [if 0xD800 ≤ u ∧ u < 0xE000 then none else some (.ofNat u.toNat)]
  | u :: v :: rest =>
    if 0xD800 ≤ u ∧ u < 0xDC00 ∧ 0xDC00 ≤ v ∧ v < 0xE000 then
      some (.ofNat (0x10000 + (u.toNat - 0xD800) * 0x400 + (v.toNat - 0xDC00))) :: decodeUtf16 rest
    else
      (if 0xD800 ≤ u ∧ u < 0xE000 then none else some (.ofNat u.toNat)) :: decodeUtf16 (v :: rest)

/-- The characters of an `OsStr` and the places where it is no Unicode. -/
def OsStr.chars : (t : TargetFamily) → OsStr t → List (Option Char)
  | .unix, bytes => Utf8.decode bytes
  | .windows, units => decodeUtf16 units

/-- `OsStr::to_string_lossy`. -/
def OsStr.toStringLossy (t : TargetFamily) (s : OsStr t) : String := Utf8.lossy (OsStr.chars t s)

/-- `std::env::var`, with what `var_os` answers. -/
def stdEnvVar (t : TargetFamily) (value : Option (OsStr t)) : Option String :=
  value.bind fun s => Utf8.strict? (OsStr.chars t s)

/-! ### `std::io` -/

/-- The error of `read_to_string` and `read_line` on bytes that are not UTF-8. -/
def invalidUtf8 : IoError := ⟨.invalidData, "stream did not contain valid UTF-8"⟩

/-- `std::fs::read_to_string`, with what reading the file answers. -/
def readToString (content : Except IoError (List UInt8)) : Except IoError String :=
  content.bind fun bytes =>
    match Utf8.fromUtf8? bytes with
    | some s => .ok s
    | none => .error invalidUtf8

/-- The string that `read_line` leaves in place of an empty one, after reading the bytes `line`: if
they are not UTF-8 it stays empty, and an error of the reader changes nothing. -/
def readLine (line : List UInt8) : String := (Utf8.fromUtf8? line).getD ""

/-- `str::trim_end_matches('\n')`. -/
def trimEndMatchesNewline (s : String) : String := .ofList (s.toList.rdropWhile (· = '\n'))

/-! ### Hosted functions -/

section

variable {t : TargetFamily}

/-- `hosted_dir_list`, with what `read_dir` answers, an entry being given by its path. -/
def hostedDirList (readDir : Except IoError (List (Except IoError (OsStr t)))) :
    Except (IOErr RocStr) (List RocStr) :=
  match readDir with
  | .ok rd =>
    -- Entries that could not be read are skipped.
    let entries := rd.filterMap fun entry => entry.toOption.map (OsStr.toStringLossy t)
    .ok (entries.map .fromStr)
  | .error e => .error (.fromIoError .fromStr e)

/-- `hosted_env_cwd`, with what `current_dir` answers. -/
def hostedEnvCwd (currentDir : Except IoError (OsStr t)) : RocStr :=
  let cwd := (currentDir.toOption.map (OsStr.toStringLossy t)).getD ""
  .fromStr cwd

/-- `hosted_env_exe_path`, with what `current_exe` answers. -/
def hostedEnvExePath (currentExe : Except IoError (OsStr t)) : RocStr :=
  let exePath := (currentExe.toOption.map (OsStr.toStringLossy t)).getD ""
  .fromStr exePath

/-- `hosted_env_var`, with the value the variable is set to. -/
def hostedEnvVar (var : Option (OsStr t)) : RocStr :=
  -- A variable that is no Unicode counts as unset.
  let value := (stdEnvVar t var).getD ""
  .fromStr value

end

/-- `hosted_file_read_utf8`, with what reading the file answers. -/
def hostedFileReadUtf8 (content : Except IoError (List UInt8)) : Except (IOErr RocStr) RocStr :=
  match readToString content with
  | .ok content => .ok (.fromStr content)
  | .error e => .error (.fromIoError .fromStr e)

/-- `hosted_stdin_line`, with the bytes that `read_line` reads. -/
def hostedStdinLine (line : List UInt8) : RocStr := .fromStr (trimEndMatchesNewline (readLine line))

/-- `build_args_list`.  `argv` is a null pointer or the array it points to, and an element of the
array is a null pointer or a C string. -/
def buildArgsList (argc : Int32) (argv : Option (List (Option (List UInt8)))) : List RocStr :=
  match argv with
  | none => []
  | some argv =>
    if argc ≤ 0 then []
    else
      -- The array is read up to the first null pointer.
      let args := (argv.take argc.toInt.toNat).takeWhile Option.isSome
      args.reduceOption.map fun arg => .fromStr (Utf8.fromUtf8Lossy arg)

end BasicCli
