import BasicCli.Hosted.Text
import BasicCli.Utf8.Equiv.Decode

/-!
# Lossy text

`File.read_utf8!`, `Env.var!` and `Cmd.exec_output!` are documented to replace what is not UTF-8 by
`U+FFFD`.  `lossy_iff` says on which bytes each of them does: `exec_output!` on all, the other two
on the bytes that need no replacement.  Otherwise `read_utf8!` fails
(`hostedFileReadUtf8_of_not_valid`) and `var!` gives the empty string (`hostedEnvVar_of_not_valid`).
-/

namespace BasicCli

open Utf8

/-- The lossy decoding of `bytes` as Roc should get it. -/
def lossyRocStr (bytes : List UInt8) : RocStr := .fromStr (fromUtf8Lossy bytes)

namespace RocStr

theorem fromStr_injective : Function.Injective fromStr := by
  intro s s' h
  have hb : encode s.toList = encode s'.toList := congrArg bytes h
  exact String.ext_iff.mpr (encode_injective hb)

/-- Bytes that are a text are delivered as they are. -/
theorem bytes_lossyRocStr {bytes : List UInt8} (h : Valid bytes) :
    (lossyRocStr bytes).bytes = bytes := by
  obtain ⟨cs, rfl⟩ := h
  show encode (fromUtf8Lossy (encode cs)).toList = encode cs
  rw [fromUtf8Lossy_encode, String.toList_ofList]

theorem lossyRocStr_ne_empty {bytes : List UInt8} (h : ¬ Valid bytes) :
    lossyRocStr bytes ≠ .fromStr "" := by
  intro he
  have hmem := mem_fromUtf8Lossy h
  rw [fromStr_injective he] at hmem
  cases hmem

end RocStr

/-! ### The three routes -/

theorem hostedFileReadUtf8_of_valid {bytes : List UInt8} (h : Valid bytes) :
    hostedFileReadUtf8 (.ok bytes) = .ok (lossyRocStr bytes) := by
  have hr : readToString (.ok bytes) = .ok (fromUtf8Lossy bytes) := by
    unfold readToString
    simp only [Except.bind, fromUtf8?_of_valid h]
  rw [hostedFileReadUtf8, hr]
  rfl

/-- A file that is not UTF-8 is reported as an error. -/
theorem hostedFileReadUtf8_of_not_valid {bytes : List UInt8} (h : ¬ Valid bytes) :
    hostedFileReadUtf8 (.ok bytes) =
      .error (.newOther .fromStr "stream did not contain valid UTF-8") := by
  have hr : readToString (.ok bytes) = .error invalidUtf8 := by
    unfold readToString
    simp only [Except.bind, fromUtf8?_of_not_valid h]
  rw [hostedFileReadUtf8, hr]
  rfl

theorem hostedEnvVar_of_valid {bytes : List UInt8} (h : Valid bytes) :
    hostedEnvVar (t := .unix) (some bytes) = lossyRocStr bytes := by
  have hv : stdEnvVar .unix (some bytes) = some (fromUtf8Lossy bytes) := fromUtf8?_of_valid h
  rw [hostedEnvVar, hv]
  rfl

/-- A variable that is not UTF-8 looks as if it were not set. -/
theorem hostedEnvVar_of_not_valid {bytes : List UInt8} (h : ¬ Valid bytes) :
    hostedEnvVar (t := .unix) (some bytes) = .fromStr "" := by
  have hv : stdEnvVar .unix (some bytes) = none := fromUtf8?_of_not_valid h
  rw [hostedEnvVar, hv]
  rfl

theorem hostedCmdExecOutput_of_exited (code : Int32) (stdout stderr : List UInt8) :
    hostedCmdExecOutput RocStr.fromStr (.ok ⟨some code, stdout, stderr⟩) =
      if code = 0 then
        .ok { stderrUtf8Lossy := lossyRocStr stderr, stdoutUtf8 := lossyRocStr stdout }
      else
        .error (.nonZeroExit
          { stderrUtf8Lossy := lossyRocStr stderr
            stdoutUtf8Lossy := lossyRocStr stdout
            exitCode := code }) := by
  unfold hostedCmdExecOutput commandExecOutput tryCmdOutputResult
  by_cases h : code = 0
  · simp only [if_pos h]
    rfl
  · simp only [if_neg h]
    rfl

/-- **Where text is lossy**: Roc gets the lossy decoding of a file or a variable exactly if that is
UTF-8 already, and the lossy decoding of a child's output always; bytes that are UTF-8 arrive as
they are. -/
theorem lossy_iff (bytes stdout stderr : List UInt8) (code : Int32) :
    (hostedFileReadUtf8 (.ok bytes) = .ok (lossyRocStr bytes) ↔ Valid bytes) ∧
    ((hostedEnvVar (t := .unix) (some bytes) = lossyRocStr bytes ∧
      (hostedEnvVar (t := .unix) (some bytes) = .empty → lossyRocStr bytes = .empty)) ↔
        Valid bytes) ∧
    (hostedCmdExecOutput RocStr.fromStr (.ok ⟨some code, stdout, stderr⟩) =
      if code = 0 then
        .ok { stderrUtf8Lossy := lossyRocStr stderr, stdoutUtf8 := lossyRocStr stdout }
      else
        .error (.nonZeroExit
          { stderrUtf8Lossy := lossyRocStr stderr
            stdoutUtf8Lossy := lossyRocStr stdout
            exitCode := code })) ∧
    (Valid bytes → (lossyRocStr bytes).bytes = bytes) := by
  refine ⟨⟨fun h => ?_, hostedFileReadUtf8_of_valid⟩, ⟨fun h => ?_, fun h => ?_⟩,
    hostedCmdExecOutput_of_exited code stdout stderr, RocStr.bytes_lossyRocStr⟩
  · by_contra hn
    rw [hostedFileReadUtf8_of_not_valid hn] at h
    cases h
  · by_contra hn
    rw [hostedEnvVar_of_not_valid hn] at h
    exact RocStr.lossyRocStr_ne_empty hn h.1.symm
  · rw [hostedEnvVar_of_valid h]
    exact ⟨rfl, id⟩

/-- A file and a variable holding the byte `FF`. -/
theorem not_lossy_ff :
    hostedFileReadUtf8 (.ok [0xFF]) ≠ .ok (lossyRocStr [0xFF]) ∧
    hostedEnvVar (t := .unix) (some [0xFF]) ≠ lossyRocStr [0xFF] := by
  have h : ¬ Valid [0xFF] := (none_mem_decode_iff _).mp (by decide)
  rw [hostedFileReadUtf8_of_not_valid h, hostedEnvVar_of_not_valid h]
  exact ⟨nofun, (RocStr.lossyRocStr_ne_empty h).symm⟩

end BasicCli
