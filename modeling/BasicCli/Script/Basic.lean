import BasicCli.CargoVersions.Basic

/-!
# Scripts

The scripts of `ci/` read files and print lines.  What they print to may refuse lines; the
files stay as they are while a script runs.
-/

namespace BasicCli.Script

variable {ε φ : Type}

/-- The standard output, with `ε` for the errors of the platform: how the next writes end, and the
lines that it has. -/
structure Printed (ε : Type) where
  answers : List (Except ε Unit)
  lines : List Str

/-- What prints and may fail. -/
abbrev ScriptM (ε φ : Type) := ExceptT φ (StateM (Printed ε))

/-- `Stdout.line!`, with what `?` makes of its error. -/
def stdoutLine (into : ε → φ) (line : Str) : ScriptM ε φ Unit := fun out =>
  match out.answers with
  | .error err :: answers => (.error (into err), { out with answers })
  | .ok _ :: answers => (.ok (), { answers, lines := out.lines ++ [line] })
  | [] => (.ok (), { out with lines := out.lines ++ [line] })

/-- The line of the directory. -/
def cwdLine (cwd : Str) : Str := "Current working directory: ".toList ++ cwd

end BasicCli.Script
