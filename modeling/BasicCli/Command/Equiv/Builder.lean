import BasicCli.Command.Basic
import Mathlib.Algebra.Group.Even
import Mathlib.Data.List.Induction

/-!
# The builder and the command it starts

`Cmd` keeps the environment as one flat list of keys and values and a flag; `to_std_command` pairs
the list up again.  Every builder call keeps the list the flattening of the pairs given so far
(`envs_build`), so the pairs come back whole and in order (`setEnvs_flatten`), and the command that
starts is the one the calls describe (`toStdCommand_build`).
-/

namespace BasicCli

namespace Cmd

/-! ### What a chain of calls asks for -/

/-- The arguments given by a chain of calls, in call order. -/
def argsOf : List Call → List String
  | [] => []
  | .arg a :: calls => a :: argsOf calls
  | .args newArgs :: calls => newArgs ++ argsOf calls
  | _ :: calls => argsOf calls

/-- The variables set by a chain of calls, in call order. -/
def pairsOf : List Call → List (String × String)
  | [] => []
  | .env key value :: calls => (key, value) :: pairsOf calls
  | .envs pairs :: calls => pairs ++ pairsOf calls
  | _ :: calls => pairsOf calls

/-- The value that the last pair for `k` gives it. -/
def lastValue? (pairs : List (String × String)) (k : String) : Option String :=
  pairs.reverse.lookup k

/-- The environment a chain of calls asks for. -/
def envOf (calls : List Call) (parent : String → Option String) (k : String) : Option String :=
  match lastValue? (pairsOf calls) k with
  | some v => some v
  | none => if Call.clearEnvs ∈ calls then none else parent k

/-! ### The record -/

/-- Keys and values in one list, as `Cmd` stores them. -/
def flatten (pairs : List (String × String)) : List String := pairs.flatMap fun p => [p.1, p.2]

theorem even_length_flatten (pairs : List (String × String)) : Even (flatten pairs).length := by
  induction pairs with
  | nil => exact ⟨0, rfl⟩
  | cons p pairs ih =>
    obtain ⟨n, hn⟩ := ih
    refine ⟨n + 1, ?_⟩
    have h : (flatten (p :: pairs)).length = 2 + (flatten pairs).length := by
      simp [flatten]; omega
    omega

theorem envs_fold (pairs : List (String × String)) (acc : List String) :
    pairs.foldl (fun acc p => acc ++ [p.1, p.2]) acc = acc ++ flatten pairs := by
  induction pairs generalizing acc with
  | nil => simp [flatten]
  | cons p pairs ih => rw [List.foldl_cons, ih]; simp [flatten]

/-- One builder call appends its pairs, flattened. -/
theorem envs_apply (cmd : Record) (c : Call) :
    (c.apply cmd).envs = cmd.envs ++ flatten (pairsOf [c]) := by
  cases c with
  | envs pairs =>
    show cmd.envs ++ pairs.foldl _ [] = _
    rw [envs_fold]
    simp [pairsOf]
  | _ => simp [Call.apply, arg, args, env, clearEnvs, pairsOf, flatten]

theorem pairsOf_append (c d : List Call) : pairsOf (c ++ d) = pairsOf c ++ pairsOf d := by
  induction c with
  | nil => rfl
  | cons a c ih => cases a <;> simp [pairsOf, ih]

theorem argsOf_append (c d : List Call) : argsOf (c ++ d) = argsOf c ++ argsOf d := by
  induction c with
  | nil => rfl
  | cons a c ih => cases a <;> simp [argsOf, ih]

theorem lastValue?_append_singleton (pairs : List (String × String)) (p : String × String)
    (k : String) :
    lastValue? (pairs ++ [p]) k = if k = p.1 then some p.2 else lastValue? pairs k := by
  obtain ⟨key, value⟩ := p
  unfold lastValue?
  rw [List.reverse_append, List.reverse_singleton, List.singleton_append, List.lookup_cons]
  by_cases hk : k = key
  · simp [hk]
  · rw [if_neg hk, beq_eq_false_iff_ne.mpr hk]

variable (program : String) (calls : List Call)

theorem build_append_singleton (c : Call) :
    build program (calls ++ [c]) = c.apply (build program calls) := by
  simp [build, List.foldl_append]

/-- After any calls the list is the flattening of the pairs given so far. -/
theorem envs_build : (build program calls).envs = flatten (pairsOf calls) := by
  induction calls using List.reverseRecOn with
  | nil => rfl
  | append_singleton calls c ih =>
    rw [build_append_singleton, envs_apply, ih, pairsOf_append]
    simp [flatten]

theorem args_build : (build program calls).args = argsOf calls := by
  induction calls using List.reverseRecOn with
  | nil => rfl
  | append_singleton calls c ih =>
    rw [build_append_singleton, argsOf_append, ← ih]
    cases c <;> simp [Call.apply, arg, args, env, envs, clearEnvs, argsOf]

theorem program_build : (build program calls).program = program := by
  induction calls using List.reverseRecOn with
  | nil => rfl
  | append_singleton calls c ih =>
    rw [build_append_singleton]
    cases c <;> exact ih

/-- The flag says whether `clear_envs` was called, wherever it was. -/
theorem clearEnvs_build :
    (build program calls).clearEnvs = true ↔ Call.clearEnvs ∈ calls := by
  induction calls using List.reverseRecOn with
  | nil => simp [build, new]
  | append_singleton calls c ih =>
    rw [build_append_singleton, List.mem_append, ← ih]
    cases c <;> simp [Call.apply, arg, args, env, envs, clearEnvs]

end Cmd

/-! ### The command -/

namespace Command

open Cmd

theorem chunks2_flatten (pairs : List (String × String)) :
    chunks2 (flatten pairs) = pairs.map fun p => [p.1, p.2] := by
  induction pairs with
  | nil => rfl
  | cons p pairs ih =>
    rw [List.map_cons, ← ih]
    rfl

/-- Chunking a flattened list sets the pairs it came from. -/
theorem setEnvs_flatten (cmd : StdCommand) (pairs : List (String × String)) :
    setEnvs cmd (flatten pairs) = pairs.foldl (fun cmd p => cmd.env p.1 p.2) cmd := by
  rw [setEnvs, chunks2_flatten, List.foldl_map]

theorem foldl_arg (cmd : StdCommand) (as : List String) :
    as.foldl StdCommand.arg cmd = { cmd with args := cmd.args ++ as } := by
  induction as generalizing cmd with
  | nil => simp
  | cons a as ih => rw [List.foldl_cons, ih]; simp [StdCommand.arg]

/-- Setting variables in order touches nothing but the variables, and the last value wins. -/
theorem foldl_env (cmd : StdCommand) (pairs : List (String × String)) :
    pairs.foldl (fun cmd p => cmd.env p.1 p.2) cmd =
      { cmd with vars := fun k => (lastValue? pairs k).or (cmd.vars k) } := by
  induction pairs using List.reverseRecOn with
  | nil => simp [lastValue?]
  | append_singleton pairs p ih =>
    rw [List.foldl_append, ih]
    simp only [List.foldl_cons, List.foldl_nil, StdCommand.env, StdCommand.mk.injEq, true_and]
    funext k
    rw [lastValue?_append_singleton]
    by_cases hk : k = p.1 <;> simp [hk]

/-- **The command the builder describes**: the program, the arguments in call order, and the
environment in which the last value of a key wins over the inherited one, or over nothing if the
environment was ever cleared.  The flat list is never of odd length. -/
theorem toStdCommand_build (program : String) (calls : List Call)
    (parent : String → Option String) :
    let cmd := build program calls
    let std := cmd.toCommand.toStdCommand
    std.program = program ∧ std.args = argsOf calls ∧ std.childEnv parent = envOf calls parent ∧
      Even cmd.envs.length := by
  have hclear := clearEnvs_build program calls
  simp only [toStdCommand, CmdRecord.toCommand, envs_build, args_build, program_build,
    setEnvs_flatten, foldl_env, foldl_arg]
  refine ⟨?_, ?_, ?_, even_length_flatten _⟩
  · split <;> rfl
  · split <;> rfl
  · -- A variable of the child: what the calls set last, else the parent's unless it was cleared.
    funext k
    unfold StdCommand.childEnv envOf
    by_cases hc : Call.clearEnvs ∈ calls
    · have hb := hclear.mpr hc
      cases h : lastValue? (pairsOf calls) k <;> simp [hb, hc, h, StdCommand.clear]
    · have hb : (build program calls).clearEnvs = false := by simpa using mt hclear.mp hc
      cases h : lastValue? (pairsOf calls) k <;> simp [hb, hc, h, StdCommand.new]

end Command

end BasicCli
