import BasicCli.Main.Basic
import BasicCli.Text.Search
import BasicCli.Utf8.Basic

/-!
# Comparing the dependencies of two manifests

`ci/check_cargo_versions_match.roc` reads two Cargo manifests line by line and compares the versions
of the dependencies that they share.  Where the script puts `Err(StrErr(..))` itself behind `?`, the
error has one more `Err` around it.
-/

namespace BasicCli

/-- A `Str`, by its characters. -/
abbrev Str := List Char

namespace Str

/-- `Str.trim`, which drops the characters that Unicode calls `White_Space`. -/
def trim (s : Str) : Str := Text.trimBy isWhiteSpace s

/-- `Str.starts_with`. -/
def startsWith (s start : Str) : Bool := start.isPrefixOf s

/-- `Str.ends_with`. -/
def endsWith (s ending : Str) : Bool := ending.isSuffixOf s

/-- `Str.contains`. -/
def contains (s needle : Str) : Bool := decide (needle <:+: s)

/-- `Str.split_first`: what is before and after the first `delimiter`. -/
def splitFirst (s delimiter : Str) : Option (Str × Str) := s.dropInfix? delimiter

/-- `Str.from_utf8`. -/
def fromUtf8 (bytes : List UInt8) : Option Str := (Utf8.fromUtf8? bytes).map String.toList

end Str

/-- The errors of `parse_dependency_line`. -/
inductive ParseErr
  | strErr (errMsg : Str)
  | err (e : ParseErr)
  | badUtf8
deriving DecidableEq, Repr

/-- `err_s`. -/
def errS {α : Type} (errMsg : Str) : Except ParseErr α := .error (.strErr errMsg)

/-- A dependency and its version. -/
structure Dep where
  name : Str
  version : Str
deriving DecidableEq, Repr

/-- What is reported of a dependency whose versions differ. -/
structure Mismatch where
  depName : Str
  rootVersion : Str
  ciVersion : Str
deriving DecidableEq, Repr

/-- The text that is looked for in the header of a dependency section. -/
def dependenciesTag : Str := "dependencies]".toList

/-- The text that is looked for in a table. -/
def versionTag : Str := "version".toList

/-- `extract_quoted_string`. -/
def extractQuotedString (str : Str) : Except ParseErr Str :=
  if str.startsWith ['"'] && str.endsWith ['"'] then
    match Str.fromUtf8 ((Utf8.encode str).drop 1).dropLast with
    | some inner => .ok inner
    | none => .error .badUtf8
  else errS ("String is not properly quoted: ".toList ++ str)

/-- `extract_version_from_table`. -/
def extractVersionFromTable (tableStr : Str) : Except ParseErr Str :=
  match Str.splitFirst tableStr versionTag with
  | none =>
    .error (.err (.strErr ("Could not find substring 'version' in table: ".toList ++ tableStr)))
  | some (_, after) =>
    let trimmedAfter := Str.trim after
    if trimmedAfter.startsWith ['='] then
      match Str.fromUtf8 ((Utf8.encode trimmedAfter).drop 1) with
      | none => .error .badUtf8
      | some valueStr =>
        let valuePart := Str.trim valueStr
        match Str.splitFirst valuePart ['"'] with
        | none =>
          .error (.err (.strErr
            ("Could not find opening quote for version in: ".toList ++ tableStr)))
        | some (_, afterFirstQuote) =>
          match Str.splitFirst afterFirstQuote ['"'] with
          | none =>
            .error (.err (.strErr
              ("Could not find closing quote for version in: ".toList ++ tableStr)))
          | some (versionContent, _) => .ok versionContent
    else errS ("Could not find '=' after version in: ".toList ++ tableStr)

/-- The `version` of `parse_dependency_line`. -/
def parseVersion (trimmedValue : Str) : Except ParseErr Str :=
  if trimmedValue.startsWith ['"'] then extractQuotedString trimmedValue
  else if trimmedValue.startsWith ['\x7b'] then extractVersionFromTable trimmedValue
  else errS ("I don't recognize this dependency format: ".toList ++ trimmedValue)

/-- `parse_dependency_line`. -/
def parseDependencyLine (line : Str) : Except ParseErr Dep :=
  let trimmed := Str.trim line
  if trimmed.startsWith ['#'] || trimmed.isEmpty then
    errS ("I expected a dependency line like 'dep = \"1.0\"', but got '".toList ++ trimmed ++
      "'.".toList)
  else
    match Str.splitFirst trimmed ['='] with
    | none =>
      .error (.err (.strErr
        ("I expected a `=` in this line: '".toList ++ trimmed ++ "'".toList)))
    | some (namePart, valuePart) =>
      let depName := Str.trim namePart
      let trimmedValue := Str.trim valuePart
      (parseVersion trimmedValue).map (Dep.mk depName)

/-- What `extract_dependencies` knows after some lines. -/
structure DepState where
  deps : List Dep
  inDepSection : Bool
deriving DecidableEq, Repr

/-- What `extract_dependencies` does with a line. -/
def DepState.walk (state : DepState) (line : Str) : DepState :=
  let trimmedLine := Str.trim line
  let isDepSection := trimmedLine.contains dependenciesTag
  let isOtherSection := trimmedLine.startsWith ['['] && !isDepSection && !trimmedLine.isEmpty
  let newInDepSection :=
    if isDepSection then true else if isOtherSection then false else state.inDepSection
  if state.inDepSection && !trimmedLine.isEmpty && !trimmedLine.startsWith ['['] then
    match parseDependencyLine trimmedLine with
    | .ok dep => { deps := state.deps ++ [dep], inDepSection := newInDepSection }
    -- Lines that are no dependency are skipped without a word.
    | .error _ => { state with inDepSection := newInDepSection }
  else { state with inDepSection := newInDepSection }

/-- `extract_dependencies`. -/
def extractDependencies (tomlContent : Str) : List Dep :=
  ((tomlContent.splitOn '\n').foldl DepState.walk { deps := [], inDepSection := false }).deps

/-- `find_version_mismatches`. -/
def findVersionMismatches (rootDeps ciDeps : List Dep) : List Mismatch :=
  rootDeps.foldl (fun state rootDep =>
    match ciDeps.find? (fun ciDep => ciDep.name == rootDep.name) with
    | some ciDep =>
      if rootDep.version ≠ ciDep.version then
        state ++ [⟨rootDep.name, rootDep.version, ciDep.version⟩]
      else state
    | none => state) []

end BasicCli
