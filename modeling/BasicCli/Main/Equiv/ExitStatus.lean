import BasicCli.Main.Basic

/-!
# The exit status

A run ends with status `0` when the program succeeded and neither `dbg` nor a failed `expect`
happened, and with another status when not, except for the exit codes that the operating system
truncates to `0` (`observedStatus_eq_zero_iff`).  The fix-up for `dbg` and `expect` looks at the
code before truncation, so such a code hides them too.
-/

namespace BasicCli

variable {ε : Type}

/-- `dbg` and failed `expect`s. -/
def Callback.isDebugOrExpect : Callback → Bool
  | dbg _ | expectFailed _ => true
  | _ => false

/-- The run succeeded: `main!` returned `Ok({})` or `Err(Exit(0))`, and there was no `dbg` and no
failed `expect`. -/
def Succeeded (callbacks : List Callback) (r : MainResult ε) : Prop :=
  (r = .ok ∨ r = .exit 0) ∧ ∀ c ∈ callbacks, c.isDebugOrExpect = false

/-- `main!` returned a non-zero multiple of `256`. -/
def MainResult.TruncatesToZero (r : MainResult ε) : Prop :=
  ∃ code, r = .exit code ∧ code ≠ 0 ∧ 256 ∣ code.toInt

/-! ### The flag -/

/-- A callback sets the flag if it is a `dbg` or a failed `expect`, and never clears it. -/
theorem Callback.debugOrExpectCalled_run (s : HostState) (c : Callback) :
    (c.run s).debugOrExpectCalled = (s.debugOrExpectCalled || c.isDebugOrExpect) := by
  cases c <;> simp [Callback.run, rocDbgFn, rocExpectFailedFn, Callback.isDebugOrExpect]

theorem debugOrExpectCalled_foldl (s : HostState) (cs : List Callback) :
    (cs.foldl (fun s c => c.run s) s).debugOrExpectCalled =
      (s.debugOrExpectCalled || cs.any Callback.isDebugOrExpect) := by
  induction cs generalizing s with
  | nil => simp
  | cons c cs ih =>
    rw [List.foldl_cons, ih, Callback.debugOrExpectCalled_run, List.any_cons, Bool.or_assoc]

/-- The callback that `main_for_host!` may add does not set the flag. -/
theorem any_mainForHost (inspect : ε → String) (r : MainResult ε) :
    (mainForHost inspect r).1.any Callback.isDebugOrExpect = false := by
  cases r <;> rfl

/-! ### The code -/

theorem rustMain_eq (inspect : ε → String) (callbacks : List Callback) (r : MainResult ε) :
    rustMain inspect callbacks r =
      if callbacks.any Callback.isDebugOrExpect && (mainForHost inspect r).2 == 0 then 1
      else (mainForHost inspect r).2 := by
  unfold rustMain
  simp only [debugOrExpectCalled_foldl, List.any_append, any_mainForHost, Bool.or_false,
    Bool.false_or]

theorem mainForHost_eq_zero_iff (inspect : ε → String) (r : MainResult ε) :
    (mainForHost inspect r).2 = 0 ↔ r = .ok ∨ r = .exit 0 := by
  cases r <;> simp [mainForHost]

/-- The code `main` returns is zero exactly for the successful runs. -/
theorem rustMain_eq_zero_iff (inspect : ε → String) (callbacks : List Callback)
    (r : MainResult ε) : rustMain inspect callbacks r = 0 ↔ Succeeded callbacks r := by
  have hany : (∀ c ∈ callbacks, c.isDebugOrExpect = false) ↔
      callbacks.any Callback.isDebugOrExpect = false := by simp
  rw [rustMain_eq, Succeeded, ← mainForHost_eq_zero_iff inspect, hany]
  by_cases h : (mainForHost inspect r).2 = 0
  · cases callbacks.any Callback.isDebugOrExpect <;> simp [h]
  · simp [h]

theorem observedStatus_one : observedStatus 1 ≠ 0 := by decide

/-- The low 8 bits of a code are zero exactly for the multiples of `256`. -/
theorem observedStatus_eq_zero_iff_dvd (code : Int32) :
    observedStatus code = 0 ↔ 256 ∣ code.toInt := by
  have hlt := code.toBitVec.isLt
  have h : (observedStatus code).toNat = code.toBitVec.toNat % 256 := rfl
  rw [← UInt8.toNat_inj, h]
  show _ ↔ 256 ∣ code.toBitVec.toInt
  rw [BitVec.toInt_eq_toNat_cond]
  show code.toBitVec.toNat % 256 = 0 ↔ _
  split <;> omega

/-- A code that is not zero but is observed as zero comes from `Err(Exit(code))`. -/
theorem truncatesToZero_iff (inspect : ε → String) (callbacks : List Callback)
    (r : MainResult ε) :
    r.TruncatesToZero ↔ rustMain inspect callbacks r ≠ 0 ∧
      observedStatus (rustMain inspect callbacks r) = 0 := by
  rw [rustMain_eq]
  cases r with
  | ok =>
    cases callbacks.any Callback.isDebugOrExpect <;>
      simp [MainResult.TruncatesToZero, mainForHost, observedStatus_one]
  | other err => simp [MainResult.TruncatesToZero, mainForHost, observedStatus_one]
  | exit code =>
    by_cases h : code = 0
    · cases callbacks.any Callback.isDebugOrExpect <;>
        simp [MainResult.TruncatesToZero, mainForHost, observedStatus_one, h]
    · simp [MainResult.TruncatesToZero, mainForHost, h, observedStatus_eq_zero_iff_dvd]

/-- **When the observed status tells success from failure**: unless the exit code is a non-zero
one that truncates to `0`. -/
theorem observedStatus_eq_zero_iff (inspect : ε → String) (callbacks : List Callback)
    (r : MainResult ε) :
    (observedStatus (rustMain inspect callbacks r) = 0 ↔ Succeeded callbacks r) ↔
      ¬ r.TruncatesToZero := by
  rw [truncatesToZero_iff inspect callbacks r, ← rustMain_eq_zero_iff inspect]
  constructor
  · rintro h ⟨hne, h0⟩
    exact hne (h.mp h0)
  · intro h
    constructor
    · intro h0
      by_contra hne
      exact h ⟨hne, h0⟩
    · intro h0
      rw [h0]
      rfl

/-- After a `dbg`, `Err(Exit(256))` is observed as success. -/
theorem not_observedStatus_exit_256 :
    ¬ ∀ (callbacks : List Callback) (r : MainResult Empty),
      observedStatus (rustMain nofun callbacks r) = 0 ↔ Succeeded callbacks r := by
  intro h
  have hz : observedStatus (rustMain nofun [.dbg "x"] (.exit 256 : MainResult Empty)) = 0 := by
    decide
  have hs := ((h _ _).mp hz).2 (.dbg "x") (by simp)
  exact absurd hs (by decide)

end BasicCli
