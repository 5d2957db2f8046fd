import BasicCli.Command.Builder

/-!
# `Command`

The host's view of a `Cmd` (`crates/roc_command`) and the `std::process::Command` it makes of it.
-/

namespace BasicCli

/-! ### `std::process::Command` -/

/-- `std::process::Command`: the program, its arguments and the changes to the environment, which
are a flag for `env_clear` and the variables set since. -/
structure StdCommand where
  program : String
  args : List String
  envClear : Bool
  vars : String → Option String

namespace StdCommand

/-- `std::process::Command::new`. -/
def new (program : String) : StdCommand := ⟨program, [], false, fun _ => none⟩

/-- `Command::arg` appends an argument. -/
def arg (cmd : StdCommand) (a : String) : StdCommand := { cmd with args := cmd.args ++ [a] }

/-- `Command::env_clear` drops the inherited variables and those set so far. -/
def clear (cmd : StdCommand) : StdCommand := { cmd with envClear := true, vars := fun _ => none }

/-- `Command::env` sets a variable. -/
def env (cmd : StdCommand) (key value : String) : StdCommand :=
  { cmd with vars := fun k => if k = key then some value else cmd.vars k }

/-- The environment of the child that `cmd` starts from a process with environment `parent`. -/
def childEnv (cmd : StdCommand) (parent : String → Option String) (k : String) : Option String :=
  match cmd.vars k with
  | some v => some v
  | none => if cmd.envClear then none else parent k

end StdCommand

/-! ### The host's record -/

/-- `Command`.  The fields are in the order of the `#[repr(C)]` struct. -/
structure Command (σ ρ : Type) where
  args : ρ
  envs : ρ
  program : σ
  clearEnvs : UInt8
deriving DecidableEq, Repr

/-- The `Command` that the host finds where Roc put a `Cmd`; `Bool.True` is the byte `1`. -/
def CmdRecord.toCommand {σ ρ : Type} (cmd : CmdRecord σ ρ) : Command σ ρ where
  args := cmd.args
  envs := cmd.envs
  program := cmd.program
  clearEnvs := if cmd.clearEnvs then 1 else 0

/-- `<[T]>::chunks(2)`: the last chunk may be a single element. -/
def chunks2 {α : Type} : List α → List (List α)
  | [] => []
  | [a] => [[a]]
  | a :: b :: rest => [a, b] :: chunks2 rest

namespace Command

/-- The loop over `env_slice.chunks(2)`. -/
def setEnvs (cmd : StdCommand) (envs : List String) : StdCommand :=
  (chunks2 envs).foldl
    (fun cmd chunk =>
      match chunk with
      | [key, value] => cmd.env key value
      -- the single element left over by a list of odd length
      | _ => cmd)
    cmd

/-- `Command::to_std_command`. -/
def toStdCommand (self : Command String (List String)) : StdCommand :=
  let cmd := StdCommand.new self.program
  let cmd := self.args.foldl StdCommand.arg cmd
  let cmd := if self.clearEnvs ≠ 0 then cmd.clear else cmd
  setEnvs cmd self.envs

end Command

end BasicCli
