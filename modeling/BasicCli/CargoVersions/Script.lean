import BasicCli.Script.Basic

/-!
# The script that compares two manifests

`main!` of `ci/check_cargo_versions_match.roc`.
-/

namespace BasicCli.CargoVersions

open Script

/-- What the script is run in, with `ε` for the errors of the platform. -/
structure Surroundings (ε : Type) where
  /-- `Env.cwd!`, displayed -/
  cwd : Except ε Str
  /-- `File.exists!` -/
  fileExists : Str → Except ε Bool
  /-- `File.read_utf8!` -/
  readUtf8 : Str → Except ε Str

/-- The errors of `main!`. -/
inductive ScriptErr (ε : Type)
  | failedToGetCwd (err : ε)
  | exit (code : Int32) (errMsg : Str)
  /-- What `?` hands on. -/
  | platform (err : ε)

variable {ε : Type}

/-- `err_exit`. -/
def errExit (errMsg : Str) : ScriptErr ε := .exit 1 ("\n❌ ".toList ++ errMsg)

/-- `root_cargo_path` -/
def rootCargoPath : Str := "Cargo.toml".toList

/-- `ci_cargo_path` -/
def ciCargoPath : Str := "ci/rust_http_server/Cargo.toml".toList

/-- What is said of a manifest that is not there. -/
def notFoundText (path cwd : Str) : Str := path ++ " not found in ".toList ++ cwd ++ ".".toList

/-- What is said of a mismatch. -/
def mismatchText (m : Mismatch) : Str :=
  "  ".toList ++ m.depName ++ ": ".toList ++ rootCargoPath ++ " has '".toList ++ m.rootVersion ++
    "', ".toList ++ ciCargoPath ++ " has '".toList ++ m.ciVersion ++ "'".toList

/-- What is said of all mismatches. -/
def mismatchesText (mismatches : List Mismatch) : Str :=
  "Found version mismatches in shared dependencies:\n\n".toList ++
    ['\n'].intercalate (mismatches.map mismatchText)

/-- The line of a match. -/
def matchLine : Str := "✓ All shared dependencies have matching versions".toList

/-- `main!`. -/
def main (w : Surroundings ε) : ScriptM ε (ScriptErr ε) Unit := do
  let cwd ← ofExcept (w.cwd.mapError .failedToGetCwd)
  stdoutLine .platform (cwdLine cwd)
  let rootExists ← ofExcept ((w.fileExists rootCargoPath).mapError .platform)
  let ciExists ← ofExcept ((w.fileExists ciCargoPath).mapError .platform)
  if !rootExists then throw (errExit (notFoundText rootCargoPath cwd))
  else if !ciExists then throw (errExit (notFoundText ciCargoPath cwd))
  else
    let rootContent ← ofExcept ((w.readUtf8 rootCargoPath).mapError .platform)
    let ciContent ← ofExcept ((w.readUtf8 ciCargoPath).mapError .platform)
    let rootDeps := extractDependencies rootContent
    let ciDeps := extractDependencies ciContent
    let mismatches := findVersionMismatches rootDeps ciDeps
    if mismatches.isEmpty then stdoutLine .platform matchLine
    else throw (errExit (mismatchesText mismatches))

end BasicCli.CargoVersions
