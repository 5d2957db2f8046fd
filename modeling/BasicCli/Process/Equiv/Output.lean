import BasicCli.Command.Equiv.Exec
import BasicCli.Console.Equiv.Boundary
import BasicCli.Main.Equiv.ExitStatus
import BasicCli.Process.Equiv.Args

/-!
# The output of the other program

What `Cmd.exec_output!` returns for a command that starts a Roc program: all that the program has
written, stream by stream and in order, and whether it succeeded (`execOutput_child`).  The texts
are Unicode, so that nothing of them is replaced.
-/

namespace BasicCli

open Console StdIo Utf8

/-! ### Texts -/

theorem strBytes_append (s t : String) : strBytes (s ++ t) = strBytes s ++ strBytes t := by
  rw [strBytes, String.toList_append, encode_append]
  rfl

theorem strBytes_join (texts : List String) :
    strBytes (String.join texts) = texts.flatMap strBytes := by
  induction texts with
  | nil => rfl
  | cons text texts ih => rw [String.join_cons, strBytes_append, ih, List.flatMap_cons]

/-- The stream and the text that an act is to write. -/
def ChildAct.output : ChildAct → Fd × String
  | stdoutLine message => (.stdout, message ++ "\n")
  | stdoutWrite message => (.stdout, message)
  | stderrLine message => (.stderr, message ++ "\n")
  | stderrWrite message => (.stderr, message)
  | dbg message => (.stderr, "\x1b[33mdbg:\x1b[0m " ++ message ++ "\n")
  | expectFailed message => (.stderr, "\x1b[33mexpect failed:\x1b[0m " ++ trim message ++ "\n")

/-- The bytes that an act is to write. -/
def ChildAct.bytes (act : ChildAct) : List (Fd × UInt8) :=
  (strBytes act.output.2).map (act.output.1, ·)

/-- The text of all acts on a stream. -/
def textOf (fd : Fd) (acts : List ChildAct) : String :=
  String.join (((acts.map ChildAct.output).filter fun out => out.1 = fd).map Prod.snd)

theorem bytes_textOf (fd : Fd) (acts : List ChildAct) :
    ((acts.flatMap ChildAct.bytes).filter fun b => b.1 = fd).map Prod.snd =
      strBytes (textOf fd acts) := by
  rw [textOf, strBytes_join]
  induction acts with
  | nil => rfl
  | cons act acts ih =>
    rw [List.flatMap_cons, List.filter_append, List.map_append, ih, List.map_cons]
    have hbytes : (act.bytes.filter fun b => b.1 = fd).map Prod.snd =
        if act.output.1 = fd then strBytes act.output.2 else [] := by
      rw [ChildAct.bytes]
      split_ifs with h
      · rw [List.filter_eq_self.mpr (by simpa using fun _ _ => h), List.map_map]
        exact List.map_id _
      · rw [List.filter_eq_nil_iff.mpr (by simpa using fun _ _ => h), List.map_nil]
    rw [hbytes]
    split_ifs with h
    · rw [List.filter_cons_of_pos (by simpa using h)]
      rfl
    · rw [List.filter_cons_of_neg (by simpa using h)]
      rfl

/-! ### Acts -/

theorem ChildAct.run_meets {s : Console} (hs : s.Boundary) (act : ChildAct) :
    Meets act.run s act.bytes := by
  cases act with
  | stdoutLine message =>
    have h := hostedStdoutLine_meets hs (.fromStr message)
    rwa [bytes, output, strBytes_append]
  | stdoutWrite message => exact hostedStdoutWrite_meets hs (.fromStr message)
  | stderrLine message =>
    have h := hostedStderrLine_meets hs (.fromStr message)
    rwa [bytes, output, strBytes_append]
  | stderrWrite message => exact hostedStderrWrite_meets hs (.fromStr message)
  | dbg message =>
    have h := ignore_spec (stderr_writeFmt_emits hs
      [strBytes "\x1b[33mdbg:\x1b[0m ", strBytes message, [10]])
    rw [bytes, output, strBytes_append, strBytes_append, List.map_append, List.map_append,
      List.append_assoc]
    exact h
  | expectFailed message =>
    have h := ignore_spec (stderr_writeFmt_emits hs
      [strBytes "\x1b[33mexpect failed:\x1b[0m ", strBytes (trim message), [10]])
    rw [bytes, output, strBytes_append, strBytes_append, List.map_append, List.map_append,
      List.append_assoc]
    exact h

/-- What each act does, all of them do one after the other. -/
theorem forM_meets {s : Console} (hs : s.Boundary) (acts : List ChildAct) :
    Meets (acts.forM ChildAct.run) s (acts.flatMap ChildAct.bytes) := by
  induction acts generalizing s with
  | nil => exact ⟨s, rfl, hs, (List.append_nil _).symm⟩
  | cons act acts ih =>
    obtain ⟨s₁, hrun₁, hs₁, hout₁⟩ := act.run_meets hs
    obtain ⟨s₂, hrun₂, hs₂, hout₂⟩ := ih hs₁
    refine ⟨s₂, ?_, hs₂, ?_⟩
    · show acts.forM ChildAct.run (act.run s).2 = _
      rw [hrun₁]
      exact hrun₂
    · rw [hout₂, hout₁, List.flatMap_cons, List.append_assoc]

/-! ### Both programs -/

/-- The status of a program, as the program that has started it sees it. -/
def childStatus {ε : Type} (inspect : ε → String) (acts : List ChildAct) (r : MainResult ε) :
    Int32 :=
  .ofNat (observedStatus (rustMain inspect (acts.map ChildAct.callback) r)).toNat

/-- If no write fails, all that the program has written is collected. -/
theorem childOutput_eq {ε : Type} (inspect : ε → String) {events : Fd → List SinkEvent}
    (h : ∀ fd, ∀ e ∈ events fd, e.Takes) (acts : List ChildAct) (r : MainResult ε) :
    childOutput inspect events acts r =
      { code := some (childStatus inspect acts r)
        stdout := strBytes (textOf .stdout (acts ++ lastActs inspect r))
        stderr := strBytes (textOf .stderr (acts ++ lastActs inspect r)) } := by
  obtain ⟨s, hrun, hs, hout⟩ := forM_meets (boundary_init h) (acts ++ lastActs inspect r)
  have hwritten : s.written = (acts ++ lastActs inspect r).flatMap ChildAct.bytes := by
    rw [hs.written_eq, hout]
    rfl
  unfold childOutput
  rw [hrun]
  dsimp only
  rw [hwritten, bytes_textOf, bytes_textOf]
  rfl

theorem toInt_ofNat_observedStatus (code : Int32) :
    (Int32.ofNat (observedStatus code).toNat).toInt = code.toInt % 256 := by
  have hlt := (observedStatus code).toNat_lt
  have hstatus : (observedStatus code).toNat = code.toBitVec.toNat % 256 := rfl
  have hcode : code.toInt = code.toBitVec.toInt := rfl
  rw [Int32.toInt_ofNat_of_lt (by omega), hstatus, hcode, BitVec.toInt_eq_toNat_cond]
  split <;> omega

/-- The status is zero for the programs that succeed, and for those whose exit code is cut off. -/
theorem childStatus_eq_zero_iff {ε : Type} (inspect : ε → String) (acts : List ChildAct)
    (r : MainResult ε) :
    childStatus inspect acts r = 0 ↔
      Succeeded (acts.map ChildAct.callback) r ∨ r.TruncatesToZero := by
  have hzero : childStatus inspect acts r = 0 ↔
      observedStatus (rustMain inspect (acts.map ChildAct.callback) r) = 0 := by
    rw [← Int32.toInt_inj, childStatus, toInt_ofNat_observedStatus,
      observedStatus_eq_zero_iff_dvd]
    exact (Int.dvd_iff_emod_eq_zero ..).symm
  rw [hzero, truncatesToZero_iff inspect (acts.map ChildAct.callback),
    ← rustMain_eq_zero_iff inspect]
  constructor
  · intro h
    exact or_iff_not_imp_left.mpr fun hne => ⟨hne, h⟩
  · rintro (h | ⟨-, h⟩)
    · rw [h]
      rfl
    · exact h

/-- **The output reaches the program that asked for it.**  For a command that starts a Roc program
none of whose writes fails, `Cmd.exec_output!` returns all that the program has written, its own
last message among it: in an `Ok` if it has succeeded or its exit code is a multiple of 256, and
else in a `NonZeroExit` with the code modulo 256. -/
theorem execOutput_child {ε : Type} (inspect : ε → String) {events : Fd → List SinkEvent}
    (h : ∀ fd, ∀ e ∈ events fd, e.Takes) (acts : List ChildAct) (r : MainResult ε)
    (call : HostCall) {run : RunCommand} {cmd : Cmd.Record}
    (hrun : run (Cmd.stdCommand cmd) = .ok (childOutput inspect events acts r)) :
    let stdout := call.fromStr (textOf .stdout (acts ++ lastActs inspect r))
    let stderr := call.fromStr (textOf .stderr (acts ++ lastActs inspect r))
    (Succeeded (acts.map ChildAct.callback) r ∨ r.TruncatesToZero →
      Cmd.execOutput call run cmd =
        some (.ok { stdoutUtf8 := stdout, stderrUtf8Lossy := stderr })) ∧
    (¬ (Succeeded (acts.map ChildAct.callback) r ∨ r.TruncatesToZero) →
      ∃ exitCode : Int32,
        exitCode.toInt = (rustMain inspect (acts.map ChildAct.callback) r).toInt % 256 ∧
        Cmd.execOutput call run cmd =
          some (.error (.nonZeroExit
            { exitCode, stdoutUtf8Lossy := stdout, stderrUtf8Lossy := stderr }))) := by
  rw [Cmd.execOutput_eq, hrun, childOutput_eq inspect h]
  dsimp only [verdict]
  rw [strBytes_fromUtf8Lossy, strBytes_fromUtf8Lossy, Verdict.output,
    ← childStatus_eq_zero_iff inspect]
  constructor
  · intro hzero
    rw [if_pos hzero]
  · intro hne
    exact ⟨_, toInt_ofNat_observedStatus _, by rw [if_neg hne]; rfl⟩

/-- A call in whose words `hi` with its newline can be told from other texts. -/
def hiCall : HostCall := ⟨fun _ => 0, 4096, fun s => .replicate 24 (if s = "hi\n" then 1 else 2)⟩

/-- A program that writes `hi` in two parts, has a `dbg` in between and exits with 258. -/
def runHi : RunCommand := fun _ =>
  .ok (childOutput (fun () => "") (fun _ => [.accept 1])
    [.stdoutWrite "h", .dbg "x", .stdoutLine "i"] (.exit 258))

theorem execOutput_child_hi :
    Cmd.execOutput hiCall runHi (Cmd.new "child") =
      some (.error (.nonZeroExit
        { exitCode := 2, stdoutUtf8Lossy := .replicate 24 1
          stderrUtf8Lossy := .replicate 24 2 })) := by
  have htakes : ∀ fd : Fd, ∀ e ∈ (fun _ => [.accept 1] : Fd → List SinkEvent) fd, e.Takes := by
    intro fd e he
    rw [List.mem_singleton.mp he]
    exact Nat.one_ne_zero
  have hspec := execOutput_child (fun () => "") htakes
    [.stdoutWrite "h", .dbg "x", .stdoutLine "i"] (.exit 258) hiCall
    (rfl : runHi (Cmd.stdCommand (Cmd.new "child")) = _)
  have hfailed := mt (childStatus_eq_zero_iff (fun () => "")
    [.stdoutWrite "h", .dbg "x", .stdoutLine "i"] (.exit 258)).mpr (by decide)
  obtain ⟨exitCode, hcode, h⟩ := hspec.2 hfailed
  obtain rfl : exitCode = 2 := Int32.toInt_inj.mp (hcode.trans (by decide))
  exact h.trans (by decide)

end BasicCli
