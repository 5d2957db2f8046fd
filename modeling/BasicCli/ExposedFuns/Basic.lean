import BasicCli.Script.Basic

/-!
# Looking for functions that nothing uses

`ci/check_all_exposed_funs_tested.roc` reads the modules that `platform/main.roc` exposes, and the
functions of each, and searches the examples and the tests for them.  The directory, the files and
what the commands answer stay as they are while the script runs.
-/

namespace BasicCli

/-- `Str.replace_first`. -/
def Str.replaceFirst (haystack needle flower : Str) : Str :=
  match Str.splitFirst haystack needle with
  | some (before, after) => before ++ flower ++ after
  | none => haystack

namespace ExposedFuns

open Script

/-- What the script is run in, with `ε` for the errors of the platform. -/
structure Surroundings (ε : Type) where
  /-- `Env.cwd!`, displayed -/
  cwd : Except ε Str
  /-- `File.read_utf8!` -/
  readUtf8 : Str → Except ε Str
  /-- `File.is_dir!` -/
  isDir : Str → Except ε Bool
  /-- `Cmd.exec!` -/
  exec : Str → List Str → Except ε Unit
  /-- whether it is `PathErr NotFound` -/
  isNotFound : ε → Bool
  /-- `Inspect.to_str` -/
  inspect : ε → Str

/-- The errors of `main!`. -/
inductive ScriptErr (ε : Type)
  | ripgrepNotInstalled (err : ε)
  | failedToGetCwd (err : ε)
  | failedToGetCwd2 (err : ε)
  | strErr (errMsg : Str)
  | exit (code : Int32) (errMsg : Str)
  /-- What `?` hands on. -/
  | platform (err : ε)

variable {ε : Type}

/-- `err_s`. -/
def errS {α : Type} (errMsg : Str) : Except (ScriptErr ε) α := .error (.strErr errMsg)

/-! ### The list behind a keyword -/

/-- `extract_exposes_list` and `extract_module_list`, which differ in the keyword that they look for
and name in their messages. -/
def extractList (keyword sourceCode : Str) : Except (ScriptErr ε) (List Str) :=
  match Str.splitFirst sourceCode keyword with
  | some (_, after) =>
    let trimmedAfter := Str.trim after
    if trimmedAfter.startsWith ['['] then
      let listContent := Str.replaceFirst trimmedAfter ['['] []
      match Str.splitFirst listContent [']'] with
      | some (before, _) =>
        .ok (((before.splitOn ',').map Str.trim).filter fun s => !s.isEmpty)
      | none =>
        errS ("Could not find closing bracket for ".toList ++ keyword ++
          " list in source code:\n\t".toList ++ sourceCode)
    else
      errS ("Could not find opening bracket after '".toList ++ keyword ++
        "' in source code:\n\t".toList ++ sourceCode)
  | none =>
    errS ("Could not find ".toList ++ keyword ++ " section in source_code:\n\t".toList ++
      sourceCode)

/-- The keyword of the modules that a platform exposes. -/
def exposesKeyword : Str := "exposes".toList

/-- The keyword of what a module exposes. -/
def moduleKeyword : Str := "module".toList

/-- `extract_exposes_list`. -/
def extractExposesList (sourceCode : Str) : Except (ScriptErr ε) (List Str) :=
  extractList exposesKeyword sourceCode

/-- `extract_module_list`. -/
def extractModuleList (sourceCode : Str) : Except (ScriptErr ε) (List Str) :=
  extractList moduleKeyword sourceCode

/-! ### Modules and their functions -/

theorem encode_ne_nil {s : Str} (hs : ¬ s.isEmpty) : Utf8.encode s ≠ [] := by
  cases s with
  | nil => exact absurd rfl hs
  | cons c s =>
    rw [Utf8.encode, List.flatMap_cons]
    exact fun h => String.utf8EncodeChar_ne_nil (List.append_eq_nil_iff.mp h).1

/-- `starts_with_lowercase`.  Text that is not empty has a first byte, so there is no crash. -/
def startsWithLowercase (str : Str) : Bool :=
  if h : str.isEmpty then false
  else
    let firstCharByte := (Utf8.encode str).head (encode_ne_nil h)
    97 ≤ firstCharByte && firstCharByte ≤ 122

/-- A module and the functions that it exposes. -/
structure ModuleFunctions where
  moduleName : Str
  exposedFunctions : List Str
deriving DecidableEq

/-- The file of a module. -/
def modulePath (moduleName : Str) : Str := "platform/".toList ++ moduleName ++ ".roc".toList

/-- `process_module!`. -/
def processModule (w : Surroundings ε) (moduleName : Str) :
    Except (ScriptErr ε) ModuleFunctions := do
  let moduleSourceCode ← (w.readUtf8 (modulePath moduleName)).mapError .platform
  let moduleItems ← extractModuleList moduleSourceCode
  let moduleFunctions := moduleItems.filter startsWithLowercase
  pure ⟨moduleName, moduleFunctions⟩

/-! ### The search -/

/-- A function by the name that is searched for. -/
def functionPattern (moduleName functionName : Str) : Str := moduleName ++ ['.'] ++ functionName

/-- The directories that are searched. -/
def searchDirs : List Str := ["examples".toList, "tests".toList]

/-- The command that searches them. -/
def rg : Str := "rg".toList

/-- The check of a directory in `is_function_unused!`. -/
def checkDir (w : Surroundings ε) (cwd searchDir : Str) : Except (ScriptErr ε) Unit :=
  match w.isDir searchDir with
  | .ok isDir =>
    if !isDir then
      errS ("Error: Path '".toList ++ searchDir ++ "' inside ".toList ++ cwd ++
        " is not a directory.".toList)
    else .ok ()
  | .error err =>
    if w.isNotFound err then
      errS ("Error: Directory '".toList ++ searchDir ++ "' does not exist in ".toList ++ cwd)
    else
      errS ("Error checking directory '".toList ++ searchDir ++ "': ".toList ++ w.inspect err)

/-- The search of a directory in `is_function_unused!`. -/
def unusedInDir (w : Surroundings ε) (pattern searchDir : Str) : Except (ScriptErr ε) Bool := do
  let dirExists ← (w.isDir searchDir).mapError .platform
  if !dirExists then pure true
  else
    match w.exec rg ["-q".toList, pattern, searchDir] with
    | .ok _ => pure false
    | .error _ => pure true

/-- `is_function_unused!`. -/
def isFunctionUnused (w : Surroundings ε) (moduleName functionName : Str) :
    Except (ScriptErr ε) Bool := do
  let pattern := functionPattern moduleName functionName
  let cwd ← w.cwd.mapError .failedToGetCwd2
  searchDirs.forM (checkDir w cwd)
  let unused ← searchDirs.mapM (unusedInDir w pattern)
  pure (unused.foldl (fun state isUnusedRes => state && isUnusedRes) true)

/-! ### The script -/

/-- What is known of a function. -/
inductive Usage
  | found (qualifiedFunctionName : Str)
  | notFound (qualifiedFunctionName : Str)

/-- What is printed of a function, if anything. -/
def Usage.text : Usage → Str
  | found _ => []
  | notFound qualifiedFunctionName => qualifiedFunctionName

/-- What `main!` makes of a function. -/
def tagFunction (w : Surroundings ε) (moduleName functionName : Str) :
    Except (ScriptErr ε) Usage := do
  if ← isFunctionUnused w moduleName functionName then
    pure (.notFound (functionPattern moduleName functionName))
  else
    pure (.found (functionPattern moduleName functionName))

/-- The `tagged_functions` of a module. -/
def tagFunctions (w : Surroundings ε) (m : ModuleFunctions) : Except (ScriptErr ε) (List Usage) :=
  m.exposedFunctions.mapM (tagFunction w m.moduleName)

/-- The line before the functions. -/
def unusedLine : Str := "Functions not used in basic-cli/examples or basic-cli/tests:".toList

/-- The message of the exit. -/
def exitMessage : Str := "I found untested functions, see above.".toList

/-- `main!`. -/
def main (w : Surroundings ε) : ScriptM ε (ScriptErr ε) Unit := do
  let _ ← ofExcept ((w.exec rg ["--version".toList]).mapError .ripgrepNotInstalled)
  let cwd ← ofExcept (w.cwd.mapError .failedToGetCwd)
  stdoutLine .platform (cwdLine cwd)
  let mainContent ← ofExcept ((w.readUtf8 "platform/main.roc".toList).mapError .platform)
  let exposedModules ← ofExcept (extractExposesList mainContent)
  let moduleNameAndFunctions ← ofExcept (exposedModules.mapM (processModule w))
  let taggedFunctions ← ofExcept (moduleNameAndFunctions.mapM (tagFunctions w))
  let notFoundFunctions :=
    (taggedFunctions.flatten.map Usage.text).filter fun s => !s.isEmpty
  if notFoundFunctions.isEmpty then pure ()
  else
    stdoutLine .platform unusedLine
    notFoundFunctions.forM (stdoutLine .platform)
    throw (.exit 1 exitMessage)

end ExposedFuns

end BasicCli
