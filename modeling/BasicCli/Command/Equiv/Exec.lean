import BasicCli.Command.Equiv.Layout
import BasicCli.Command.Exec

/-!
# Four ways to run a `Cmd`

`Verdict` is what Roc can tell of a command that has been run.  The result of each of the four
functions is a function of it (`execExitCode_eq`, `execOutput_eq`, `exec_eq`, `execCmd_eq`), so they
agree (`exec_agrees`).
-/

namespace BasicCli

open Memory Utf8

/-- An `IOErr` with what `f` makes of its message. -/
def RocIOErr.map {σ τ : Type} (f : σ → τ) : RocIOErr σ → RocIOErr τ
  | .simple tag => .simple tag
  | .other msg => .other (f msg)

/-- What Roc can tell of a command. -/
inductive Verdict
  | exited (exitCode : Int32) (stdout stderr : String)
  | failed (ioErr : RocIOErr String)

/-- What Roc can tell of an outcome: a signal is an `IOErr`, like a failure to start. -/
def verdict : Except IoError Output → Verdict
  | .ok ⟨some exitCode, stdout, stderr⟩ =>
    .exited exitCode (fromUtf8Lossy stdout) (fromUtf8Lossy stderr)
  | .ok ⟨none, _, _⟩ => .failed (.other "Process was killed by signal")
  | .error e => .failed (RocModule.valueOf (.fromIoError id e))

/-! ### The four results -/

namespace Verdict

variable {σ : Type} (fromStr : String → σ)

/-- The result of `Cmd.exec_exit_code!`. -/
def exitCode : Verdict → Except (RocCmdErr σ) Int32
  | exited exitCode _ _ => .ok exitCode
  | failed ioErr => .error (.cmdErr (ioErr.map fromStr))

/-- The result of `Cmd.exec_output!`. -/
def output : Verdict → Except (RocCmdOutputErr σ) (RocCmdOutput σ)
  | exited exitCode stdout stderr =>
    if exitCode = 0 then .ok { stdoutUtf8 := fromStr stdout, stderrUtf8Lossy := fromStr stderr }
    else .error (.nonZeroExit
      { exitCode, stdoutUtf8Lossy := fromStr stdout, stderrUtf8Lossy := fromStr stderr })
  | failed ioErr => .error (.cmdErr (ioErr.map fromStr))

/-- A result that is only `Ok` for the exit code 0. -/
def toTry {ε : Type} (cmdErr : RocIOErr String → ε) (execFailed : Int32 → ε) :
    Verdict → Except ε Unit
  | exited exitCode _ _ => if exitCode = 0 then .ok () else .error (execFailed exitCode)
  | failed ioErr => .error (cmdErr ioErr)

/-- The result of `Cmd.exec!`. -/
def exec (program : String) (v : Verdict) : Except (RocExecErr σ) Unit :=
  v.toTry (fun ioErr => .cmdErr (ioErr.map fromStr)) (.execFailed program)

/-- The result of `Cmd.exec_cmd!`. -/
def execCmd (v : Verdict) : Except (RocExecCmdErr σ) Unit :=
  v.toTry (fun ioErr => .cmdErr (ioErr.map fromStr)) .execFailed

/-- The command has ended with the exit code 0. -/
def Zero (v : Verdict) : Prop := ∃ stdout stderr, v = exited 0 stdout stderr

variable {fromStr} {v : Verdict}

theorem exitCode_eq_ok_iff : v.exitCode fromStr = .ok 0 ↔ v.Zero := by
  constructor
  · intro h
    cases v with
    | exited exitCode stdout stderr =>
      obtain rfl := Except.ok.inj h
      exact ⟨stdout, stderr, rfl⟩
    | failed ioErr => cases h
  · rintro ⟨stdout, stderr, rfl⟩
    rfl

theorem toTry_eq_ok_iff {ε : Type} {cmdErr : RocIOErr String → ε} {execFailed : Int32 → ε} :
    v.toTry cmdErr execFailed = .ok () ↔ v.Zero := by
  constructor
  · intro h
    cases v with
    | exited exitCode stdout stderr =>
      by_cases hzero : exitCode = 0
      · exact ⟨stdout, stderr, by rw [hzero]⟩
      · rw [toTry, if_neg hzero] at h
        cases h
    | failed ioErr => cases h
  · rintro ⟨stdout, stderr, rfl⟩
    rfl

theorem output_eq_ok_iff : (∃ output, v.output fromStr = .ok output) ↔ v.Zero := by
  constructor
  · rintro ⟨output, h⟩
    cases v with
    | exited exitCode stdout stderr =>
      by_cases hzero : exitCode = 0
      · exact ⟨stdout, stderr, by rw [hzero]⟩
      · rw [Verdict.output, if_neg hzero] at h
        cases h
    | failed ioErr => cases h
  · rintro ⟨stdout, stderr, rfl⟩
    exact ⟨_, rfl⟩

end Verdict

/-- The same `IOErr` comes of an error, whatever is made of its message. -/
theorem valueOf_fromIoError {σ : Type} (fromStr : String → σ) (e : IoError) :
    RocModule.valueOf (.fromIoError fromStr e) =
      (RocModule.valueOf (.fromIoError id e)).map fromStr := by
  obtain ⟨kind, message⟩ := e
  cases kind <;> rfl

namespace Cmd

variable (call : HostCall) (run : RunCommand) (cmd : Record)

theorem execExitCode_eq :
    execExitCode call run cmd = some ((verdict (run (stdCommand cmd))).exitCode call.fromStr) := by
  unfold execExitCode
  dsimp only
  rw [read_execExitCode (Host.tryI32CmdErr.at_write _ _ _)]
  rcases run (stdCommand cmd) with e | ⟨_ | exitCode, stdout, stderr⟩
  · -- A failure to start: the words of the message are the call's own.
    show some (Except.error (RocCmdErr.cmdErr _)) = _
    rw [valueOf_fromIoError]
    rfl
  · rfl
  · rfl

theorem execOutput_eq :
    execOutput call run cmd = some ((verdict (run (stdCommand cmd))).output call.fromStr) := by
  unfold execOutput hostedCmdExecOutput
  dsimp only
  rw [read_execOutput (Host.tryCmdOutputResult.at_write _ _ _)]
  rcases run (stdCommand cmd) with e | ⟨_ | exitCode, stdout, stderr⟩
  · show some (Except.error (RocCmdOutputErr.cmdErr _)) = _
    rw [valueOf_fromIoError]
    rfl
  · rfl
  · unfold commandExecOutput verdict Verdict.output
    dsimp only
    split_ifs <;> rfl

theorem execCmd_eq :
    execCmd call run cmd = some ((verdict (run (stdCommand cmd))).execCmd call.fromStr) := by
  unfold execCmd
  rw [execExitCode_eq]
  cases verdict (run (stdCommand cmd)) <;> rfl

theorem exec_eq (program : String) (arguments : List String) :
    exec call run program arguments =
      some ((verdict (run (stdCommand (args (new program) arguments)))).exec call.fromStr
        program) := by
  unfold exec
  dsimp only
  rw [execExitCode_eq]
  cases verdict (run (stdCommand (args (new program) arguments))) <;> rfl

end Cmd

/-! ### Agreement -/

/-- A call of each. -/
structure ExecCalls where
  exitCode : HostCall
  execCmd : HostCall
  exec : HostCall
  output : HostCall

/-- What they have given. -/
structure ExecResults where
  exitCode : Except (RocCmdErr Words) Int32
  execCmd : Except (RocExecCmdErr Words) Unit
  exec : Except (RocExecErr Words) Unit
  output : Except (RocCmdOutputErr Words) (RocCmdOutput Words)

/-- The results agree on an outcome.  Two `IOErr`s are the same if they are made of the same
`ioErr`. -/
structure ExecAgree (program : String) (outcome : Except IoError Output) (calls : ExecCalls)
    (results : ExecResults) : Prop where
  ok_iff_execCmd : results.exitCode = .ok 0 ↔ results.execCmd = .ok ()
  ok_iff_exec : results.execCmd = .ok () ↔ results.exec = .ok ()
  ok_iff_output : results.exec = .ok () ↔ ∃ output, results.output = .ok output
  zero : ∀ stdout stderr, outcome = .ok ⟨some 0, stdout, stderr⟩ →
    results.exitCode = .ok 0 ∧
    results.output = .ok
      { stdoutUtf8 := calls.output.fromStr (fromUtf8Lossy stdout)
        stderrUtf8Lossy := calls.output.fromStr (fromUtf8Lossy stderr) }
  nonZero : ∀ code stdout stderr, code ≠ 0 → outcome = .ok ⟨some code, stdout, stderr⟩ →
    results.exitCode = .ok code ∧
    results.execCmd = .error (.execFailed code) ∧
    results.exec = .error (.execFailed program code) ∧
    results.output = .error (.nonZeroExit
      { exitCode := code
        stdoutUtf8Lossy := calls.output.fromStr (fromUtf8Lossy stdout)
        stderrUtf8Lossy := calls.output.fromStr (fromUtf8Lossy stderr) })
  failed : (∃ e, outcome = .error e) ∨ (∃ stdout stderr, outcome = .ok ⟨none, stdout, stderr⟩) →
    ∃ ioErr : RocIOErr String,
      results.exitCode = .error (.cmdErr (ioErr.map calls.exitCode.fromStr)) ∧
      results.execCmd = .error (.cmdErr (ioErr.map calls.execCmd.fromStr)) ∧
      results.exec = .error (.cmdErr (ioErr.map calls.exec.fromStr)) ∧
      results.output = .error (.cmdErr (ioErr.map calls.output.fromStr))

/-- The results of a verdict. -/
def Verdict.results (v : Verdict) (program : String) (calls : ExecCalls) : ExecResults where
  exitCode := v.exitCode calls.exitCode.fromStr
  execCmd := v.execCmd calls.execCmd.fromStr
  exec := v.exec calls.exec.fromStr program
  output := v.output calls.output.fromStr

theorem verdict_agrees (program : String) (outcome : Except IoError Output) (calls : ExecCalls) :
    ExecAgree program outcome calls ((verdict outcome).results program calls) where
  ok_iff_execCmd := Verdict.exitCode_eq_ok_iff.trans Verdict.toTry_eq_ok_iff.symm
  ok_iff_exec := Verdict.toTry_eq_ok_iff.trans Verdict.toTry_eq_ok_iff.symm
  ok_iff_output := Verdict.toTry_eq_ok_iff.trans Verdict.output_eq_ok_iff.symm
  zero := by
    rintro stdout stderr rfl
    exact ⟨rfl, rfl⟩
  nonZero := by
    rintro code stdout stderr hcode rfl
    exact ⟨rfl, if_neg hcode, if_neg hcode, if_neg hcode⟩
  failed := by
    rintro (⟨e, rfl⟩ | ⟨stdout, stderr, rfl⟩)
    · exact ⟨_, rfl, rfl, rfl, rfl⟩
    · exact ⟨_, rfl, rfl, rfl, rfl⟩

/-- **The four ways to run a `Cmd` agree** on what running it comes to. -/
theorem exec_agrees (run : RunCommand) (cmd : Cmd.Record) {outcome : Except IoError Output}
    (hcmd : run (Cmd.stdCommand cmd) = outcome)
    (hexec : run (Cmd.stdCommand (Cmd.args (Cmd.new cmd.program) cmd.args)) = outcome)
    (calls : ExecCalls) :
    ∃ results : ExecResults,
      Cmd.execExitCode calls.exitCode run cmd = some results.exitCode ∧
      Cmd.execCmd calls.execCmd run cmd = some results.execCmd ∧
      Cmd.exec calls.exec run cmd.program cmd.args = some results.exec ∧
      Cmd.execOutput calls.output run cmd = some results.output ∧
      ExecAgree cmd.program outcome calls results := by
  refine ⟨(verdict outcome).results cmd.program calls, ?_, ?_, ?_, ?_, verdict_agrees ..⟩
  · rw [Cmd.execExitCode_eq, hcmd]
    rfl
  · rw [Cmd.execCmd_eq, hcmd]
    rfl
  · rw [Cmd.exec_eq, hexec]
    rfl
  · rw [Cmd.execOutput_eq, hcmd]
    rfl

/-- `Cmd.new("ls").args(["-l"])`. -/
def lsCmd : Cmd.Record := Cmd.args (Cmd.new "ls") ["-l"]

/-- The exit code 2, with a byte on the standard error that is not UTF-8. -/
def lsOutcome : Except IoError Output := .ok ⟨some 2, [104, 105], [0xFF]⟩

/-- Calls whose texts all have the same words. -/
def zeroCalls : ExecCalls :=
  let call : HostCall := ⟨fun _ => 0, 4096, fun _ => .replicate 24 0⟩
  ⟨call, call, call, call⟩

theorem exec_agrees_ls :
    ∃ results : ExecResults,
      Cmd.execExitCode zeroCalls.exitCode (fun _ => lsOutcome) lsCmd = some results.exitCode ∧
      Cmd.execCmd zeroCalls.execCmd (fun _ => lsOutcome) lsCmd = some results.execCmd ∧
      Cmd.exec zeroCalls.exec (fun _ => lsOutcome) "ls" ["-l"] = some results.exec ∧
      Cmd.execOutput zeroCalls.output (fun _ => lsOutcome) lsCmd = some results.output ∧
      ExecAgree "ls" lsOutcome zeroCalls results :=
  exec_agrees (fun _ => lsOutcome) lsCmd rfl rfl zeroCalls

end BasicCli
