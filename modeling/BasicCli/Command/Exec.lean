import BasicCli.Command.Layout

/-!
# Running a `Cmd` in Roc

`Cmd.exec_exit_code!` and `Cmd.exec_output!`, which are the hosted functions with their results read
where the host has put them, and `Cmd.exec!` and `Cmd.exec_cmd!` of `platform/Cmd.roc`, which call
the first.
-/

namespace BasicCli

open Memory

/-- `[CmdErr(IOErr), ExecFailed({ command : Str, exit_code : I32 })]`. -/
inductive RocExecErr (σ : Type)
  | cmdErr (ioErr : RocIOErr σ)
  | execFailed (command : String) (exitCode : Int32)
deriving DecidableEq

/-- `[CmdErr(IOErr), ExecFailed({ exit_code : I32 })]`. -/
inductive RocExecCmdErr (σ : Type)
  | cmdErr (ioErr : RocIOErr σ)
  | execFailed (exitCode : Int32)
deriving DecidableEq

/-- What a call of a hosted function finds: the memory, the place in it for the result, and the
words that `RocStr::from_str` makes of a text. -/
structure HostCall where
  mem : Mem
  retPtr : ℕ
  fromStr : String → Words

/-- What running a command comes to. -/
abbrev RunCommand := StdCommand → Except IoError Output

namespace Cmd

variable (call : HostCall) (run : RunCommand)

/-- The command that the host runs. -/
def stdCommand (cmd : Record) : StdCommand := cmd.toCommand.toStdCommand

/-! ### Hosted functions -/

/-- `Cmd.exec_exit_code!`.  It is `none` where Roc can make nothing of the result. -/
def execExitCode (cmd : Record) : Option (Except (RocCmdErr Words) Int32) :=
  let status := (run (stdCommand cmd)).map Output.code
  let tryResult := hostedCmdExecExitCode call.fromStr status
  Roc.execExitCode.read (Host.tryI32CmdErr.write call.mem call.retPtr tryResult) call.retPtr

/-- `Cmd.exec_output!`. -/
def execOutput (cmd : Record) : Option (Except (RocCmdOutputErr Words) (RocCmdOutput Words)) :=
  let output := run (stdCommand cmd)
  let tryResult := hostedCmdExecOutput call.fromStr output
  Roc.execOutput.read (Host.tryCmdOutputResult.write call.mem call.retPtr tryResult) call.retPtr

/-! ### Functions of `platform/Cmd.roc` -/

/-- `Cmd.exec!`. -/
def exec (program : String) (arguments : List String) :
    Option (Except (RocExecErr Words) Unit) := do
  let cmd := args (new program) arguments
  match ← execExitCode call run cmd with
  | .ok exitCode =>
    pure (if exitCode = 0 then .ok () else .error (.execFailed program exitCode))
  | .error (.cmdErr ioErr) => pure (.error (.cmdErr ioErr))

/-- `Cmd.exec_cmd!`. -/
def execCmd (cmd : Record) : Option (Except (RocExecCmdErr Words) Unit) := do
  match ← execExitCode call run cmd with
  | .ok code => pure (if code = 0 then .ok () else .error (.execFailed code))
  | .error (.cmdErr ioErr) => pure (.error (.cmdErr ioErr))

end Cmd

end BasicCli
