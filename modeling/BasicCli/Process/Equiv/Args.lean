import BasicCli.Command.Equiv.Builder
import BasicCli.Hosted.Equiv.Lossy
import BasicCli.Process.Basic

/-!
# Arguments reach the other program

A command can be started iff there is no NUL byte in it (`StdCommand.spawn_eq_ok_iff`), and then the
`main!` of the program that it starts is given the program's name and the arguments, as they were
(`childArgs_eq`).
-/

namespace BasicCli

open Memory Cmd

variable {m : Mem} {argv fuel : ℕ} {args : List (List UInt8)}

/-! ### Starting -/

theorem StdCommand.spawn_eq_ok_iff {cmd : StdCommand} {block : List (List UInt8)}
    {given : List (List UInt8) × List (List UInt8)} :
    cmd.spawn block = .ok given ↔ given = (cmd.argv, block) ∧ ∀ s ∈ cmd.argv ++ block, 0 ∉ s := by
  unfold spawn
  by_cases h : ∃ s ∈ cmd.argv ++ block, 0 ∈ s
  · rw [if_pos h]
    obtain ⟨s, hs, hnul⟩ := h
    exact iff_of_false nofun fun h => h.2 s hs hnul
  · rw [if_neg h]
    have hnul : ∀ s ∈ cmd.argv ++ block, 0 ∉ s := fun s hs hs' => h ⟨s, hs, hs'⟩
    constructor
    · intro heq
      exact ⟨(Except.ok.inj heq).symm, hnul⟩
    · rintro ⟨rfl, -⟩
      rfl

/-! ### The array -/

theorem buildArgsLoop_eq (h : ArgvAt m argv args) (hfuel : ∀ arg ∈ args, arg.length < fuel) :
    buildArgsLoop m fuel args.length argv =
      some (args.map fun arg => .fromStr (Utf8.fromUtf8Lossy arg)) := by
  induction args generalizing argv with
  | nil => rfl
  | cons arg args ih =>
    obtain ⟨hptr, hat, hrest⟩ := h
    have hloop := ih hrest fun a ha => hfuel a (List.mem_cons_of_mem arg ha)
    rw [List.length_cons, buildArgsLoop]
    dsimp only
    rw [if_neg hptr, hat.cStr_eq (hfuel arg List.mem_cons_self), hloop]
    rfl

/-- The program is given all of the array, each string lossily. -/
theorem buildArgsListAt_eq (h : ArgvAt m argv args) (hargv : argv ≠ 0) {argc : Int32}
    (hargc : argc.toInt = args.length) (hfuel : ∀ arg ∈ args, arg.length < fuel) :
    buildArgsListAt m fuel argc argv =
      some (args.map fun arg => .fromStr (Utf8.fromUtf8Lossy arg)) := by
  unfold buildArgsListAt
  by_cases hle : argc ≤ 0
  · rw [if_pos (.inl hle)]
    have hnonpos : argc.toInt ≤ 0 := Int32.le_iff_toInt_le.mp hle
    have hnil : args = [] := List.length_eq_zero_iff.mp (by omega)
    rw [hnil]
    rfl
  · rw [if_neg (not_or.mpr ⟨hle, hargv⟩), hargc]
    exact buildArgsLoop_eq h hfuel

/-! ### Both programs -/

/-- The command that a chain of builder calls describes. -/
theorem stdCommand_build (program : String) (calls : List Call) :
    stdCommand (build program calls) =
      { program, args := argsOf calls, envClear := decide (.clearEnvs ∈ calls)
        vars := lastValue? (pairsOf calls) } := by
  have hclear : (build program calls).clearEnvs = decide (Call.clearEnvs ∈ calls) :=
    Bool.eq_iff_iff.mpr ((clearEnvs_build program calls).trans decide_eq_true_iff.symm)
  simp only [stdCommand, Command.toStdCommand, CmdRecord.toCommand, envs_build, args_build,
    program_build, Command.setEnvs_flatten, Command.foldl_env, Command.foldl_arg, hclear]
  by_cases h : Call.clearEnvs ∈ calls
  · simp [h, StdCommand.new, StdCommand.clear]
  · simp [h, StdCommand.new]

theorem strBytes_fromUtf8Lossy (s : String) : Utf8.fromUtf8Lossy (strBytes s) = s := by
  rw [strBytes, Utf8.fromUtf8Lossy_encode, String.ofList_toList]

/-- **Arguments reach the other program.**  If the command that a chain of builder calls describes
can be started, then the program that it starts is given the program's name and all arguments, in
the order of the calls. -/
theorem childArgs_eq (program : String) (calls : List Call)
    {block : List (List UInt8)} {given : List (List UInt8) × List (List UInt8)}
    (hspawn : (stdCommand (build program calls)).spawn block = .ok given)
    (hargv : ArgvAt m argv given.1) (hne : argv ≠ 0) {argc : Int32}
    (hargc : argc.toInt = given.1.length) (hfuel : ∀ arg ∈ given.1, arg.length < fuel) :
    buildArgsListAt m fuel argc argv = some ((program :: argsOf calls).map .fromStr) := by
  obtain ⟨rfl, -⟩ := StdCommand.spawn_eq_ok_iff.mp hspawn
  rw [buildArgsListAt_eq hargv hne hargc hfuel, stdCommand_build, StdCommand.argv, List.map_map]
  refine congrArg some (List.map_congr_left fun arg _ => ?_)
  exact congrArg RocStr.fromStr (strBytes_fromUtf8Lossy arg)

/-- The pointers 32 and 40 at 8, with a null pointer behind them, and the strings `ls` and `-é`. -/
def lsMem : Mem :=
  let m : Mem := Mem.store (fun _ => 0) 8 [32, 0, 0, 0, 0, 0, 0, 0, 40]
  (m.store 32 [108, 115, 0]).store 40 [45, 0xC3, 0xA9, 0]

theorem childArgs_ls :
    buildArgsListAt lsMem 16 2 8 = some (["ls", "-é"].map .fromStr) := by
  have hls : CStrAt lsMem 32 [108, 115] := ⟨by decide, by decide⟩
  have harg : CStrAt lsMem 40 [45, 0xC3, 0xA9] := ⟨by decide, by decide⟩
  have hptrs : readUsize lsMem 8 = 32 ∧ readUsize lsMem 16 = 40 ∧ readUsize lsMem 24 = 0 := by
    decide
  have hargv : ArgvAt lsMem 8 [[108, 115], [45, 0xC3, 0xA9]] :=
    ⟨by rw [hptrs.1]; decide, by rwa [hptrs.1], by rw [hptrs.2.1]; decide, by rwa [hptrs.2.1],
      hptrs.2.2⟩
  have hspawn : (stdCommand (build "ls" [.arg "-é"])).spawn [] =
      .ok ([[108, 115], [45, 0xC3, 0xA9]], []) := by
    decide
  exact childArgs_eq "ls" [.arg "-é"] hspawn hargv (by decide) (by decide) (by decide)

end BasicCli
