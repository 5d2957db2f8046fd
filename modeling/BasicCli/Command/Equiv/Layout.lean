import BasicCli.Command.Layout
import BasicCli.IOErr.Equiv.Numbering

/-!
# `Cmd` crosses the boundary

What one side of the boundary writes for a `Cmd` and for its results, the other side reads as the
same value (`cmd_crosses`).  The proof follows the types from the inside out.  At each of them the
host's `#[repr(C)]` order has to be `rocOrder`'s, and its discriminants have to be the alphabetical
numbers of their tags and lie right behind Roc's largest payload.
-/

namespace BasicCli

open Layout Memory

variable {m : Mem} {a : ℕ}

/-! ### What Roc should see -/

section

variable {σ : Type}

/-- The output that a `CmdOutputSuccess` stands for. -/
def cmdOutputValue (output : CmdOutputSuccess σ) : RocCmdOutput σ where
  stdoutUtf8 := output.stdoutUtf8
  stderrUtf8Lossy := output.stderrUtf8Lossy

/-- The payload that a `NonZeroExitPayload` stands for. -/
def nonZeroExitValue (payload : NonZeroExitPayload σ) : RocNonZeroExit σ where
  exitCode := payload.exitCode
  stdoutUtf8Lossy := payload.stdoutUtf8Lossy
  stderrUtf8Lossy := payload.stderrUtf8Lossy

/-- The tag that a `CmdOutputErr` stands for. -/
def cmdOutputErrValue (err : CmdOutputErr σ) : RocCmdOutputErr σ :=
  match err with
  | .cmdErr err => .cmdErr (RocModule.valueOf err)
  | .nonZeroExit payload => .nonZeroExit (nonZeroExitValue payload)

/-- What `Cmd.exec_exit_code!` returns for what `command_exec_exit_code` has returned. -/
def execExitCodeValue (result : Except (IOErr σ) Int32) : Except (RocCmdErr σ) Int32 :=
  match result with
  | .ok exitCode => .ok exitCode
  | .error err => .error (.cmdErr (RocModule.valueOf err))

/-- What `Cmd.exec_output!` returns for what `command_exec_output` has returned. -/
def execOutputValue (result : CommandOutputResult σ) :
    Except (RocCmdOutputErr σ) (RocCmdOutput σ) :=
  match result with
  | .success output =>
    .ok { stdoutUtf8 := output.stdoutUtf8, stderrUtf8Lossy := output.stderrUtf8Lossy }
  | .nonZeroExit failure =>
    .error (.nonZeroExit
      { exitCode := failure.exitCode, stdoutUtf8Lossy := failure.stdoutUtf8Lossy,
        stderrUtf8Lossy := failure.stderrUtf8Lossy })
  | .error err => .error (.cmdErr (RocModule.valueOf err))

end

/-! ### `Cmd` -/

/-- Roc puts a `Cmd`'s fields where the host's `Command` has them. -/
theorem rocOrder_cmd :
    Roc.cmd = .record [⟨"args", words.comap (·.args)⟩, ⟨"envs", words.comap (·.envs)⟩,
      ⟨"program", words.comap (·.program)⟩,
      ⟨"clear_envs", Codec.u8.comap fun cmd => if cmd.clearEnvs then 1 else 0⟩] :=
  rfl

theorem read_command {cmd : CmdRecord Words Words} (h : Roc.cmd.At m a cmd) :
    Host.command.read m a = some cmd.toCommand := by
  rw [rocOrder_cmd] at h
  have hargs : Reader.readField Host.commandFields "args" words.reader m a = some cmd.args :=
    h.readField (by decide) rfl (.head _) fun _ => words.read_reader
  have henvs : Reader.readField Host.commandFields "envs" words.reader m a = some cmd.envs :=
    h.readField (by decide) rfl (.tail _ (.head _)) fun _ => words.read_reader
  have hprogram :
      Reader.readField Host.commandFields "program" words.reader m a = some cmd.program :=
    h.readField (by decide) rfl (.tail _ (.tail _ (.head _))) fun _ => words.read_reader
  have hclear : Reader.readField Host.commandFields "clear_envs" Codec.u8.reader m a =
      some (if cmd.clearEnvs then 1 else 0) :=
    h.readField (by decide) rfl (.tail _ (.tail _ (.tail _ (.head _)))) fun _ =>
      Codec.u8.read_reader
  unfold Host.command
  dsimp only
  rw [hargs, henvs, hprogram, hclear]
  rfl

/-! ### `IOErr` -/

/-- In memory Roc reads an `IOErr` by its discriminant and its payload. -/
theorem read_ioErr (roc : RocModule) {err : IOErr Words} (h : Host.ioErr.At m a err) :
    (Roc.ioErr roc).read m a = roc.decodeIOErr err.tag.discriminant err.payload := by
  obtain ⟨hpayload, heq⟩ := h.rocUnion RocTag.name Roc.ioErrPayload roc.ioErr
    (by cases roc <;> rfl)
  have hwords := words.read_reader hpayload
  unfold Roc.ioErr RocModule.decodeIOErr
  rw [heq]
  cases ht : tagAt? RocTag.name roc.ioErr err.tag.discriminant.toNat with
  | none => rfl
  | some t =>
    by_cases hother : t = .other
    · subst hother
      have hsome := err.payload_isSome.mpr ((roc.tagAt?_eq_other_iff err.tag).mp ht)
      obtain ⟨msg, hmsg⟩ := Option.isSome_iff_exists.mp hsome
      rw [hmsg] at hwords ⊢
      show (words.reader.read m a).map RocIOErr.other = _
      rw [hwords]
      rfl
    · cases t <;> first | rfl | exact absurd rfl hother

/-- `Cmd` reads the error that the host has written. -/
theorem read_ioErr_cmd {err : IOErr Words} (h : Host.ioErr.At m a err) :
    (Roc.ioErr .cmd).read m a = some (RocModule.valueOf err) := by
  rw [read_ioErr .cmd h, RocModule.decodeIOErr_of_ne_dir (by decide)]

/-! ### The layers of the results -/

section Try

variable {α β ε δ : Type} {ok : Writer α} {err : Writer ε} {ok' : Reader β} {err' : Reader δ}

/-- A `RocTry` is read as a `Try` if its payloads are read as its payloads. -/
theorem read_rocTry {x : Except ε α} (f : α → β) (g : ε → δ)
    (h : (Host.rocTry ok err).At m a x)
    (hoffset : discriminantOffset [ok'.shape, err'.shape] =
      (unionShape [err.shape, ok.shape]).size)
    (hok : ∀ v, ok.At m a v → ok'.read m a = some (f v))
    (herr : ∀ e, err.At m a e → err'.read m a = some (g e)) :
    (Roc.tryUnion ok' err').read m a =
      some (match x with
        | .ok v => .ok (f v)
        | .error e => .error (g e)) := by
  cases x with
  | ok v =>
    have hnumber : tagNumber TryTag.name [.ok, .err] .ok = 1 := by decide
    refine h.read_rocUnion hoffset (by decide) hnumber ?_
    intro hpayload
    show (ok'.read m a).map Except.ok = _
    rw [hok v (Writer.at_comap.mp hpayload).inr]
    rfl
  | error e =>
    have hnumber : tagNumber TryTag.name [.ok, .err] .err = 0 := by decide
    refine h.read_rocUnion hoffset (by decide) hnumber ?_
    intro hpayload
    show (err'.read m a).map Except.error = _
    rw [herr e (Writer.at_comap.mp hpayload).inl]
    rfl

end Try

theorem read_cmdErr {err : IOErr Words} (h : Host.cmdErr.At m a err) :
    Roc.cmdErr.read m a = some (.cmdErr (RocModule.valueOf err)) := by
  have hnumber : tagNumber CmdErrTag.name [.cmdErr] .cmdErr = 0 := by decide
  refine h.read_rocUnion rfl (by decide) hnumber ?_
  intro hpayload
  show ((Roc.ioErr .cmd).read m a).map RocCmdErr.cmdErr = _
  rw [read_ioErr_cmd hpayload]
  rfl

theorem read_cmdOutput {output : CmdOutputSuccess Words} (h : Host.cmdOutputSuccess.At m a output) :
    Roc.cmdOutput.read m a = some (cmdOutputValue output) := by
  have hstdout : Reader.readField Roc.cmdOutputFields "stdout_utf8" words.reader m a =
      some output.stdoutUtf8 :=
    h.readField (by decide) (by decide) (.tail _ (.head _)) fun _ => words.read_reader
  have hstderr : Reader.readField Roc.cmdOutputFields "stderr_utf8_lossy" words.reader m a =
      some output.stderrUtf8Lossy :=
    h.readField (by decide) (by decide) (.head _) fun _ => words.read_reader
  unfold Roc.cmdOutput
  dsimp only
  rw [hstdout, hstderr]
  rfl

theorem read_nonZeroExit {payload : NonZeroExitPayload Words}
    (h : Host.nonZeroExitPayload.At m a payload) :
    Roc.nonZeroExit.read m a = some (nonZeroExitValue payload) := by
  have hcode : Reader.readField Roc.nonZeroExitFields "exit_code" Codec.i32.reader m a =
      some payload.exitCode :=
    h.readField (by decide) (by decide) (.tail _ (.tail _ (.head _))) fun _ => Codec.i32.read_reader
  have hstdout : Reader.readField Roc.nonZeroExitFields "stdout_utf8_lossy" words.reader m a =
      some payload.stdoutUtf8Lossy :=
    h.readField (by decide) (by decide) (.tail _ (.head _)) fun _ => words.read_reader
  have hstderr : Reader.readField Roc.nonZeroExitFields "stderr_utf8_lossy" words.reader m a =
      some payload.stderrUtf8Lossy :=
    h.readField (by decide) (by decide) (.head _) fun _ => words.read_reader
  unfold Roc.nonZeroExit
  dsimp only
  rw [hcode, hstdout, hstderr]
  rfl

theorem read_cmdOutputErr {err : CmdOutputErr Words} (h : Host.cmdOutputErr.At m a err) :
    Roc.cmdOutputErr.read m a = some (cmdOutputErrValue err) := by
  cases err with
  | cmdErr err =>
    have hnumber : tagNumber CmdErrTag.name [.cmdErr, .nonZeroExit] .cmdErr = 0 := by decide
    refine h.read_rocUnion rfl (by decide) hnumber ?_
    intro hpayload
    show ((Roc.ioErr .cmd).read m a).map RocCmdOutputErr.cmdErr = _
    rw [read_ioErr_cmd (Writer.at_comap.mp hpayload).inl]
    rfl
  | nonZeroExit payload =>
    have hnumber : tagNumber CmdErrTag.name [.cmdErr, .nonZeroExit] .nonZeroExit = 1 := by decide
    refine h.read_rocUnion rfl (by decide) hnumber ?_
    intro hpayload
    show (Roc.nonZeroExit.read m a).map RocCmdOutputErr.nonZeroExit = _
    rw [read_nonZeroExit (Writer.at_comap.mp hpayload).inr]
    rfl

/-! ### The boundary -/

theorem read_execExitCode {result : Except (IOErr Words) Int32}
    (h : Host.tryI32CmdErr.At m a result) :
    Roc.execExitCode.read m a = some (execExitCodeValue result) := by
  have hread := read_rocTry id (fun err => RocCmdErr.cmdErr (RocModule.valueOf err)) h rfl
    (fun _ => Codec.i32.read_reader) (fun _ => read_cmdErr)
  unfold Roc.execExitCode
  rw [hread]
  cases result <;> rfl

theorem read_execOutput {result : CommandOutputResult Words}
    (h : Host.tryCmdOutputResult.At m a (tryCmdOutputResult result)) :
    Roc.execOutput.read m a = some (execOutputValue result) := by
  have hread := read_rocTry cmdOutputValue cmdOutputErrValue h rfl (fun _ => read_cmdOutput)
    (fun _ => read_cmdOutputErr)
  unfold Roc.execOutput
  rw [hread]
  cases result <;> rfl

/-- **`Cmd` crosses the boundary**: the host finds the `Cmd` that Roc has written, and Roc the
result that the host has written, whatever else is in the memory. -/
theorem cmd_crosses (m : Mem) (a : ℕ) (cmd : CmdRecord Words Words)
    (exitCode : Except (IOErr Words) Int32) (output : CommandOutputResult Words) :
    (∃ command, Host.command.read (Roc.cmd.write m a cmd) a = some command ∧
      command.args = cmd.args ∧ command.envs = cmd.envs ∧ command.program = cmd.program ∧
      (command.clearEnvs ≠ 0 ↔ cmd.clearEnvs = true)) ∧
    Roc.execExitCode.read (Host.tryI32CmdErr.write m a exitCode) a =
      some (execExitCodeValue exitCode) ∧
    Roc.execOutput.read (Host.tryCmdOutputResult.write m a (tryCmdOutputResult output)) a =
      some (execOutputValue output) := by
  have hcmd := read_command (Roc.cmd.at_write m a cmd)
  have hexitCode := read_execExitCode (Host.tryI32CmdErr.at_write m a exitCode)
  have houtput := read_execOutput (Host.tryCmdOutputResult.at_write m a (tryCmdOutputResult output))
  refine ⟨⟨_, hcmd, rfl, rfl, rfl, ?_⟩, hexitCode, houtput⟩
  unfold CmdRecord.toCommand
  cases cmd.clearEnvs <;> simp

end BasicCli
