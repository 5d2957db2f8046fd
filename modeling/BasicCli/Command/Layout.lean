import BasicCli.Command.Basic
import BasicCli.Command.Output
import BasicCli.Memory.Typed

/-!
# `Cmd` in memory

What `Cmd.exec_exit_code!` and `Cmd.exec_output!` and their hosted functions put in memory and find
there: a `Cmd`, which Roc writes and the host reads, and the two results, which the host writes and
Roc reads.  The host's types are `#[repr(C)]`, so their fields are in the order of the declaration;
Roc's are laid out by `rocOrder` and `rocUnion`.
-/

namespace BasicCli

open Layout Memory

/-- The three words of a `RocStr` or a `RocList`.  Both sides move them as they are. -/
abbrev Words := Vector UInt8 24

/-- `RocStr` and `RocList`. -/
def words : Codec Words :=
  .ofBytes ⟨24, 8, by decide⟩ Vector.toList
    (fun bytes => if h : bytes.length = 24 then some ⟨bytes.toArray, h⟩ else none)
    (fun v => v.length_toList)
    fun v => dif_pos v.length_toList

/-! ### The host's types -/

namespace Host

/-- `IOErr`. -/
def ioErr : Writer (IOErr Words) :=
  .record [⟨"payload", words.comap fun e => e.payload.getD (.replicate 24 0)⟩,
    ⟨"tag", Codec.u8.comap fun e => e.tag.discriminant⟩]

/-- `RocSingleTagWrapper`; its discriminant is always `0`. -/
def rocSingleTagWrapper {α : Type} (payload : Writer α) : Writer α :=
  .record [⟨"payload", payload⟩, ⟨"discriminant", Codec.u8.comap fun _ => 0⟩]

/-- `RocTry`. -/
def rocTry {α ε : Type} (ok : Writer α) (err : Writer ε) : Writer (Except ε α) :=
  .record [⟨"payload", (Writer.union err ok).comap fun
      | .error e => .inl e
      | .ok v => .inr v⟩,
    ⟨"discriminant", Codec.u8.comap fun
      | .error _ => 0
      | .ok _ => 1⟩]

/-- `CmdErr`. -/
def cmdErr : Writer (IOErr Words) := rocSingleTagWrapper ioErr

/-- `TryI32CmdErr`. -/
def tryI32CmdErr : Writer (Except (IOErr Words) Int32) := rocTry Codec.i32.toWriter cmdErr

/-- `CmdOutputSuccess`. -/
def cmdOutputSuccess : Writer (CmdOutputSuccess Words) :=
  .record [⟨"stderr_utf8_lossy", words.comap (·.stderrUtf8Lossy)⟩,
    ⟨"stdout_utf8", words.comap (·.stdoutUtf8)⟩]

/-- `NonZeroExitPayload`. -/
def nonZeroExitPayload : Writer (NonZeroExitPayload Words) :=
  .record [⟨"stderr_utf8_lossy", words.comap (·.stderrUtf8Lossy)⟩,
    ⟨"stdout_utf8_lossy", words.comap (·.stdoutUtf8Lossy)⟩,
    ⟨"exit_code", Codec.i32.comap (·.exitCode)⟩]

/-- `CmdOutputErr`. -/
def cmdOutputErr : Writer (CmdOutputErr Words) :=
  .record [⟨"payload", (Writer.union ioErr nonZeroExitPayload).comap fun
      | .cmdErr ioErr => .inl ioErr
      | .nonZeroExit payload => .inr payload⟩,
    ⟨"discriminant", Codec.u8.comap fun
      | .cmdErr _ => 0
      | .nonZeroExit _ => 1⟩]

/-- `TryCmdOutputResult`. -/
def tryCmdOutputResult : Writer (Except (CmdOutputErr Words) (CmdOutputSuccess Words)) :=
  rocTry cmdOutputSuccess cmdOutputErr

/-- The fields of `Command`. -/
def commandFields : List (String × Shape) :=
  [("args", words.shape), ("envs", words.shape), ("program", words.shape),
    ("clear_envs", Codec.u8.shape)]

/-- `Command`, as the hosted functions find it. -/
def command : Reader (Command Words Words) where
  shape := recordShape Prod.snd commandFields
  read m a := do
    let args ← Reader.readField commandFields "args" words.reader m a
    let envs ← Reader.readField commandFields "envs" words.reader m a
    let program ← Reader.readField commandFields "program" words.reader m a
    let clearEnvs ← Reader.readField commandFields "clear_envs" Codec.u8.reader m a
    some { args, envs, program, clearEnvs }

end Host

/-! ### Roc's types -/

/-- The tags of `Try`, in the order of its declaration. -/
inductive TryTag
  | ok | err
deriving DecidableEq, Repr

/-- The name of a tag of `Try`. -/
def TryTag.name : TryTag → String
  | ok => "Ok"
  | err => "Err"

/-- `{ stdout_utf8 : Str, stderr_utf8_lossy : Str }`. -/
structure RocCmdOutput (σ : Type) where
  stdoutUtf8 : σ
  stderrUtf8Lossy : σ
deriving DecidableEq

/-- `{ exit_code : I32, stdout_utf8_lossy : Str, stderr_utf8_lossy : Str }`. -/
structure RocNonZeroExit (σ : Type) where
  exitCode : Int32
  stdoutUtf8Lossy : σ
  stderrUtf8Lossy : σ
deriving DecidableEq

/-- `[CmdErr(IOErr)]`. -/
inductive RocCmdErr (σ : Type)
  | cmdErr (ioErr : RocIOErr σ)
deriving DecidableEq

/-- `[CmdErr(IOErr), NonZeroExit(..)]`. -/
inductive RocCmdOutputErr (σ : Type)
  | cmdErr (ioErr : RocIOErr σ)
  | nonZeroExit (payload : RocNonZeroExit σ)
deriving DecidableEq

/-- The tags of the two unions, in the order of the declaration. -/
inductive CmdErrTag
  | cmdErr | nonZeroExit
deriving DecidableEq, Repr

/-- The name of a tag. -/
def CmdErrTag.name : CmdErrTag → String
  | cmdErr => "CmdErr"
  | nonZeroExit => "NonZeroExit"

namespace Roc

/-- A `Cmd`, as Roc puts it in memory for a hosted function. -/
def cmd : Writer (CmdRecord Words Words) :=
  .record (rocOrder Writer.Field.name Writer.Field.shape
    [⟨"args", words.comap (·.args)⟩,
      ⟨"clear_envs", Codec.u8.comap fun cmd => if cmd.clearEnvs then 1 else 0⟩,
      ⟨"envs", words.comap (·.envs)⟩,
      ⟨"program", words.comap (·.program)⟩])

/-- The payload of a tag of `IOErr`. -/
def ioErrPayload : RocTag → Reader (RocIOErr Words)
  | .other => words.reader.map .other
  | t => .const (.simple t)

/-- `IOErr` of module `m`. -/
def ioErr (m : RocModule) : Reader (RocIOErr Words) := .rocUnion RocTag.name ioErrPayload m.ioErr

/-- `Try`. -/
def tryUnion {α ε : Type} (ok : Reader α) (err : Reader ε) : Reader (Except ε α) :=
  .rocUnion TryTag.name
    (fun
      | .ok => ok.map .ok
      | .err => err.map .error)
    [.ok, .err]

/-- `[CmdErr(IOErr)]`. -/
def cmdErr : Reader (RocCmdErr Words) :=
  .rocUnion CmdErrTag.name (fun _ => (ioErr .cmd).map .cmdErr) [.cmdErr]

/-- The result of `exec_exit_code!`. -/
def execExitCode : Reader (Except (RocCmdErr Words) Int32) := tryUnion Codec.i32.reader cmdErr

/-- The fields of `exec_output!`'s output in memory. -/
def cmdOutputFields : List (String × Shape) :=
  rocOrder Prod.fst Prod.snd [("stdout_utf8", words.shape), ("stderr_utf8_lossy", words.shape)]

/-- `{ stdout_utf8 : Str, stderr_utf8_lossy : Str }`. -/
def cmdOutput : Reader (RocCmdOutput Words) where
  shape := recordShape Prod.snd cmdOutputFields
  read m a := do
    let stdoutUtf8 ← Reader.readField cmdOutputFields "stdout_utf8" words.reader m a
    let stderrUtf8Lossy ← Reader.readField cmdOutputFields "stderr_utf8_lossy" words.reader m a
    some { stdoutUtf8, stderrUtf8Lossy }

/-- The fields of `NonZeroExit`'s payload in memory. -/
def nonZeroExitFields : List (String × Shape) :=
  rocOrder Prod.fst Prod.snd
    [("exit_code", Codec.i32.shape), ("stdout_utf8_lossy", words.shape),
      ("stderr_utf8_lossy", words.shape)]

/-- `{ exit_code : I32, stdout_utf8_lossy : Str, stderr_utf8_lossy : Str }`. -/
def nonZeroExit : Reader (RocNonZeroExit Words) where
  shape := recordShape Prod.snd nonZeroExitFields
  read m a := do
    let exitCode ← Reader.readField nonZeroExitFields "exit_code" Codec.i32.reader m a
    let stdoutUtf8Lossy ← Reader.readField nonZeroExitFields "stdout_utf8_lossy" words.reader m a
    let stderrUtf8Lossy ← Reader.readField nonZeroExitFields "stderr_utf8_lossy" words.reader m a
    some { exitCode, stdoutUtf8Lossy, stderrUtf8Lossy }

/-- `[CmdErr(IOErr), NonZeroExit(..)]`. -/
def cmdOutputErr : Reader (RocCmdOutputErr Words) :=
  .rocUnion CmdErrTag.name
    (fun
      | .cmdErr => (ioErr .cmd).map .cmdErr
      | .nonZeroExit => nonZeroExit.map .nonZeroExit)
    [.cmdErr, .nonZeroExit]

/-- The result of `exec_output!`. -/
def execOutput : Reader (Except (RocCmdOutputErr Words) (RocCmdOutput Words)) :=
  tryUnion cmdOutput cmdOutputErr

end Roc

end BasicCli
