import Mathlib.Data.List.Basic

/-!
# `Cmd` in Roc

The record of `platform/Cmd.roc` and the functions that build it.  `σ` is the type of `Str` and
`ρ` the type of `List(Str)`, so that the same record serves for its contents here and for its
layout in memory.
-/

namespace BasicCli

/-- The record behind the opaque type `Cmd`. -/
structure CmdRecord (σ ρ : Type) where
  args : ρ
  clearEnvs : Bool
  envs : ρ
  program : σ
deriving DecidableEq, Repr

namespace Cmd

/-- A `Cmd` by its contents. -/
abbrev Record := CmdRecord String (List String)

/-- `Cmd.new`. -/
def new (program : String) : Record where
  args := []
  clearEnvs := false
  envs := []
  program := program

/-- `Cmd.arg`. -/
def arg (cmd : Record) (a : String) : Record where
  args := cmd.args ++ [a]
  clearEnvs := cmd.clearEnvs
  envs := cmd.envs
  program := cmd.program

/-- `Cmd.args`. -/
def args (cmd : Record) (newArgs : List String) : Record where
  args := cmd.args ++ newArgs
  clearEnvs := cmd.clearEnvs
  envs := cmd.envs
  program := cmd.program

/-- `Cmd.env`. -/
def env (cmd : Record) (key value : String) : Record where
  args := cmd.args
  clearEnvs := cmd.clearEnvs
  envs := cmd.envs ++ [key, value]
  program := cmd.program

/-- `Cmd.envs`. -/
def envs (cmd : Record) (pairs : List (String × String)) : Record :=
  let flat := pairs.foldl (fun acc p => acc ++ [p.1, p.2]) []
  { args := cmd.args
    clearEnvs := cmd.clearEnvs
    envs := cmd.envs ++ flat
    program := cmd.program }

/-- `Cmd.clear_envs`. -/
def clearEnvs (cmd : Record) : Record where
  args := cmd.args
  clearEnvs := true
  envs := cmd.envs
  program := cmd.program

/-- A call of one of the builder functions. -/
inductive Call
  | arg (a : String)
  | args (newArgs : List String)
  | env (key value : String)
  | envs (pairs : List (String × String))
  | clearEnvs
deriving DecidableEq, Repr

/-- The effect of a builder call. -/
def Call.apply (cmd : Record) : Call → Record
  | arg a => Cmd.arg cmd a
  | args newArgs => Cmd.args cmd newArgs
  | env key value => Cmd.env cmd key value
  | envs pairs => Cmd.envs cmd pairs
  | clearEnvs => Cmd.clearEnvs cmd

/-- `Cmd.new(program)` followed by a chain of builder calls. -/
def build (program : String) (calls : List Call) : Record :=
  calls.foldl Call.apply (new program)

end Cmd

end BasicCli
