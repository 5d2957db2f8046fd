import BasicCli.Hosted.Text

/-!
# Text from the environment

The functions of `crates/roc_env` and `crates/roc_stdio` that hand strings to Roc.
-/

namespace BasicCli

section

variable {t : TargetFamily}

/-- `env_dict`, with the pairs of `vars_os`. -/
def envDict (vars : List (OsStr t × OsStr t)) : List (RocStr × RocStr) :=
  vars.map fun (key, val) =>
    (.fromStr (OsStr.toStringLossy t key), .fromStr (OsStr.toStringLossy t val))

/-- `env_var`, with what `var_os` answers. -/
def envVar (value : Option (OsStr t)) : Except Unit RocStr :=
  match value with
  | some osStr => .ok (.fromStr (OsStr.toStringLossy t osStr))
  | none => .error ()

end

/-- `get_locale`. -/
def getLocale (locale : Option String) : Except Unit RocStr :=
  match locale with
  | some locale => .ok (.fromStr locale)
  | none => .error ()

/-- `get_locales`. -/
def getLocales (locales : List String) : List RocStr := locales.map .fromStr

/-- `ReturnArchOS`. -/
structure ReturnArchOS where
  arch : RocStr
  os : RocStr

/-- `current_arch_os`, with the two constants of the target. -/
def currentArchOs (arch os : String) : ReturnArchOS := ⟨.fromStr arch, .fromStr os⟩

/-- `stdin_line`, with what `lines().next()` answers.  An error is given by the message of the
crate's `IOErr`, which `into` makes of a `std::io::Error`. -/
def stdinLine (into : IoError → String) (next : Option (Except IoError String)) :
    Except RocStr RocStr :=
  match next with
  | none => .error .empty
  | some (.ok str) => .ok (.fromStr str)
  | some (.error ioErr) => .error (.fromStr (into ioErr))

end BasicCli
