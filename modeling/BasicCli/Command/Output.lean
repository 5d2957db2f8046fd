import BasicCli.IOErr.Basic

/-!
# Running a `Command`

What `crates/roc_command` makes of a child that has been run, and what the hosted functions
`Cmd.exec_exit_code!` and `Cmd.exec_output!` return to Roc.  The types take a `σ` for `RocStr`, and
the functions what makes a `σ` of a Rust string.
-/

namespace BasicCli

/-- `std::process::Output`.  `code` is `none` for a child that a signal ended. -/
structure Output where
  code : Option Int32
  stdout : List UInt8
  stderr : List UInt8

/-- `CommandOutputSuccess`. -/
structure CommandOutputSuccess (σ : Type) where
  stderrUtf8Lossy : σ
  stdoutUtf8 : σ

/-- `CommandOutputFailure`. -/
structure CommandOutputFailure (σ : Type) where
  stderrUtf8Lossy : σ
  stdoutUtf8Lossy : σ
  exitCode : Int32

/-- `CommandOutputResult`. -/
inductive CommandOutputResult (σ : Type)
  | success (output : CommandOutputSuccess σ)
  | nonZeroExit (failure : CommandOutputFailure σ)
  | error (ioErr : IOErr σ)

/-- `CmdOutputSuccess`.  The fields are in the order of the `#[repr(C)]` struct. -/
structure CmdOutputSuccess (σ : Type) where
  stderrUtf8Lossy : σ
  stdoutUtf8 : σ
deriving DecidableEq

/-- `NonZeroExitPayload`.  The fields are in the order of the `#[repr(C)]` struct. -/
structure NonZeroExitPayload (σ : Type) where
  stderrUtf8Lossy : σ
  stdoutUtf8Lossy : σ
  exitCode : Int32
deriving DecidableEq

/-- `CmdOutputErr`, with the member of its union that the discriminant names. -/
inductive CmdOutputErr (σ : Type)
  | cmdErr (ioErr : IOErr σ)
  | nonZeroExit (payload : NonZeroExitPayload σ)

/-- `CmdOutputErr::non_zero_exit`. -/
def CmdOutputErr.newNonZeroExit {σ : Type} (stderrUtf8Lossy stdoutUtf8Lossy : σ)
    (exitCode : Int32) : CmdOutputErr σ :=
  .nonZeroExit { stderrUtf8Lossy, stdoutUtf8Lossy, exitCode }

section

variable {σ : Type} (fromStr : String → σ)

/-- `bytes_to_roc_str_lossy`. -/
def bytesToRocStrLossy (bytes : List UInt8) : σ := fromStr (Utf8.fromUtf8Lossy bytes)

/-- `command_exec_exit_code`, with what `status()` answers. -/
def commandExecExitCode (status : Except IoError (Option Int32)) : Except (IOErr σ) Int32 :=
  match status with
  | .ok (some code) => .ok code
  | .ok none => .error (.newOther fromStr "Process was killed by signal")
  | .error e => .error (.fromIoError fromStr e)

/-- `command_exec_output`, with what `output()` answers. -/
def commandExecOutput (output : Except IoError Output) : CommandOutputResult σ :=
  match output with
  | .ok output =>
    let stdoutUtf8 := bytesToRocStrLossy fromStr output.stdout
    let stderrUtf8Lossy := bytesToRocStrLossy fromStr output.stderr
    match output.code with
    | some exitCode =>
      if exitCode = 0 then .success ⟨stderrUtf8Lossy, stdoutUtf8⟩
      else .nonZeroExit ⟨stderrUtf8Lossy, stdoutUtf8, exitCode⟩
    | none => .error (.newOther fromStr "Process was killed by signal")
  | .error e => .error (.fromIoError fromStr e)

/-- `hosted_cmd_exec_exit_code`. -/
def hostedCmdExecExitCode (status : Except IoError (Option Int32)) : Except (IOErr σ) Int32 :=
  commandExecExitCode fromStr status

/-- The `try_result` of `hosted_cmd_exec_output`. -/
def tryCmdOutputResult (result : CommandOutputResult σ) :
    Except (CmdOutputErr σ) (CmdOutputSuccess σ) :=
  match result with
  | .success output =>
    .ok { stderrUtf8Lossy := output.stderrUtf8Lossy, stdoutUtf8 := output.stdoutUtf8 }
  | .nonZeroExit failure =>
    .error (.newNonZeroExit failure.stderrUtf8Lossy failure.stdoutUtf8Lossy failure.exitCode)
  | .error ioErr => .error (.cmdErr ioErr)

/-- `hosted_cmd_exec_output`. -/
def hostedCmdExecOutput (output : Except IoError Output) :
    Except (CmdOutputErr σ) (CmdOutputSuccess σ) :=
  tryCmdOutputResult (commandExecOutput fromStr output)

end

end BasicCli
