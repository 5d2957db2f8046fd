import BasicCli.File.Equiv.Lines
import BasicCli.Run.Basic
import BasicCli.StdIo.Equiv.Failure

/-!
# What `file_read_line` loses

`read_until` keeps the bytes that it has taken when a read fails, and `file_read_line` drops them.

* `readUntilLoop_cuts`: they are the bytes before the failure.
* `fileReadLine_step`: what a call delivers and what it leaves.
-/

namespace BasicCli

open StdIo LawfulBufRead Memchr

variable {delim : UInt8} {r r' : BufReader}

/-- The next delimiter comes before a failure, or nothing does, or there is no failure. -/
def LineWhole (delim : UInt8) (r : BufReader) : Prop :=
  delim ∈ r.beforeFailure ∨ OnlyInterrupted r.errs ∨ r.beforeFailure = []

/-- A `read_until` that fails has taken the bytes before the failure.  It does not fail if the
delimiter is among them, or if there is no failure. -/
structure CutsUntil (delim : UInt8) (r : BufReader) (ret : Except IoError ℕ)
    (bytes : List UInt8) : Prop where
  ok : ∀ n, ret = .ok n → delim ∈ r.beforeFailure ∨ OnlyInterrupted r.errs
  error : ∀ e, ret = .error e → bytes = r.beforeFailure

namespace CutsUntil

variable {r₁ : BufReader} {ret : Except IoError ℕ} {bytes available : List UInt8} {e : IoError}
  {n : ℕ}

theorem of_error (hfill : r.fillBuf = (.error e, r₁)) (he : e.kind ≠ .interrupted) :
    CutsUntil delim r (.error e) [] where
  ok := by simp
  error _ _ := by rw [BufReader.beforeFailure_fillBuf_error hfill, if_neg he]

theorem of_interrupted (hfill : r.fillBuf = (.error e, r₁)) (he : e.kind = .interrupted)
    (h : CutsUntil delim r₁ ret bytes) : CutsUntil delim r ret bytes := by
  have hbefore := BufReader.beforeFailure_fillBuf_error hfill
  rw [if_pos he] at hbefore
  have herrs : r.errs = e :: r₁.errs := (BufReader.fillBuf_error hfill).2
  refine ⟨fun n hn => ?_, fun e' he' => ?_⟩
  · rw [hbefore, herrs]
    apply (h.ok n hn).imp_right
    intro hcalm e' he'
    rcases List.mem_cons.mp he' with rfl | he'
    · exact he
    · exact hcalm e' he'
  · rw [hbefore]
    exact h.error e' he'

/-- The stream has ended, so there is no failure. -/
theorem of_eof (hfill : r.fillBuf = (.ok [], r₁)) : CutsUntil delim r (.ok n) [] where
  ok _ _ := by
    rw [(BufReader.beforeFailure_fillBuf_ok hfill).2 rfl]
    exact .inr fun e he => absurd he List.not_mem_nil
  error := by simp

/-- What a buffer shows comes before the failure. -/
theorem of_found (hfill : r.fillBuf = (.ok available, r₁)) (hdelim : delim ∈ available) :
    CutsUntil delim r (.ok n) bytes where
  ok _ _ := .inl ((BufReader.isPrefix_beforeFailure hfill).subset hdelim)
  error := by simp

theorem of_more (hfill : r.fillBuf = (.ok available, r₁))
    (h : CutsUntil delim (r₁.consume available.length) ret bytes) :
    CutsUntil delim r ret (available ++ bytes) := by
  have hbefore : r.beforeFailure = available ++ (r₁.consume available.length).beforeFailure := by
    rw [BufReader.beforeFailure_consume hfill (Nat.le_refl _),
      append_drop_of_isPrefix (BufReader.isPrefix_beforeFailure hfill)]
  have herrs : (r₁.consume available.length).errs = r.errs :=
    ReadsUntil.errs_consume_fillBuf (R := BufReader) hfill _
  refine ⟨fun n hn => ?_, fun e he => ?_⟩
  · rw [hbefore, ← herrs]
    exact (h.ok n hn).imp_left (List.mem_append_right available)
  · rw [hbefore, h.error e he]

end CutsUntil

variable [Memchr]

theorem readUntilLoop_cuts {fuel : ℕ} {buf buf' : List UInt8} {read : ℕ} {ret : Except IoError ℕ}
    (h : readUntilLoop delim fuel r buf read = some (ret, buf', r')) :
    ∃ bytes, buf' = buf ++ bytes ∧ CutsUntil delim r ret bytes := by
  induction fuel generalizing r buf read with
  | zero => cases h
  | succ fuel ih =>
    rcases hfill : r.fillBuf with ⟨e | available, r₁⟩
    · by_cases he : e.kind = .interrupted
      · rw [readUntilLoop_of_interrupted hfill he] at h
        obtain ⟨bytes, hbytes, hcuts⟩ := ih h
        exact ⟨bytes, hbytes, hcuts.of_interrupted hfill he⟩
      · rw [readUntilLoop_of_error hfill he] at h
        cases h
        exact ⟨[], (List.append_nil _).symm, .of_error hfill he⟩
    · rcases hmem : memchr delim available with _ | i
      · by_cases hnil : available = []
        · subst hnil
          rw [readUntilLoop_of_eof hfill] at h
          cases h
          exact ⟨[], (List.append_nil _).symm, .of_eof hfill⟩
        · rw [readUntilLoop_of_more hfill hnil hmem] at h
          obtain ⟨bytes, hbytes, hcuts⟩ := ih h
          rw [List.append_assoc] at hbytes
          exact ⟨available ++ bytes, hbytes, hcuts.of_more hfill⟩
      · rw [readUntilLoop_of_found hfill hmem] at h
        cases h
        refine ⟨_, rfl, .of_found hfill ?_⟩
        -- `memchr` finds the delimiter in what is shown, so it is there.
        by_contra hdelim
        rw [memchr_eq_none_iff.mpr hdelim] at hmem
        cases hmem

/-- A `read_until` that fails does so by the next failure, and leaves what is behind it; else the
next failure is still to come. -/
theorem failure?_of_readUntilLoop {fuel : ℕ} {buf buf' : List UInt8} {read : ℕ}
    {ret : Except IoError ℕ} (h : readUntilLoop delim fuel r buf read = some (ret, buf', r')) :
    (∀ n, ret = .ok n → r.events.failure? = r'.events.failure?) ∧
      ∀ e, ret = .error e → r.events.failure? = some (e, r'.events) := by
  induction fuel generalizing r buf read with
  | zero => cases h
  | succ fuel ih =>
    -- A failed fill ends the loop or is tried again; one that succeeds is none of the failures.
    rcases hfill : r.fillBuf with ⟨e | available, r₁⟩
    · rw [BufReader.events_fillBuf_error hfill, Source.failure?_error]
      by_cases he : e.kind = .interrupted
      · rw [readUntilLoop_of_interrupted hfill he] at h
        rw [if_pos he]
        exact ih h
      · rw [readUntilLoop_of_error hfill he] at h
        cases h
        rw [if_neg he]
        refine ⟨nofun, ?_⟩
        rintro e' ⟨⟩
        rfl
    · rcases hmem : memchr delim available with _ | i
      · by_cases hnil : available = []
        · subst hnil
          rw [readUntilLoop_of_eof hfill] at h
          cases h
          exact ⟨fun _ _ => BufReader.failure?_fillBuf_ok hfill 0, nofun⟩
        · rw [readUntilLoop_of_more hfill hnil hmem] at h
          rw [BufReader.failure?_fillBuf_ok hfill]
          exact ih h
      · rw [readUntilLoop_of_found hfill hmem] at h
        cases h
        exact ⟨fun _ _ => BufReader.failure?_fillBuf_ok hfill (i + 1), nofun⟩

/-- The bytes that a failing `read_until` has taken are none iff the line is whole. -/
theorem readUntil_whole (delim : UInt8) {fuel : ℕ} (hfuel : stepsLeft r < fuel) :
    ∃ ret bytes r', readUntil fuel r delim [] = some (ret, bytes, r') ∧
      rest r = bytes ++ rest r' ∧ stepsLeft r' ≤ stepsLeft r ∧
      ((∃ n, ret = .ok n) ∨ bytes = [] ↔ LineWhole delim r) := by
  obtain ⟨ret, bytes, r', hloop, hreads⟩ := readUntilLoop_reads delim [] 0 hfuel
  obtain ⟨bytes', hbytes, hcuts⟩ := readUntilLoop_cuts hloop
  obtain rfl := List.append_cancel_left hbytes
  refine ⟨ret, bytes, r', hloop, hreads.rest_eq, hreads.stepsLeft_le, ?_⟩
  rcases ret with e | n
  · -- A failure comes, and no delimiter before it, so that only the third case is left.
    have hbytes : bytes = r.beforeFailure := hcuts.error e rfl
    obtain ⟨hdelim, hmem, hkind⟩ := hreads.error e rfl
    have hcalm : ¬ OnlyInterrupted r.errs := fun h => hkind (h e hmem)
    rw [hbytes] at hdelim
    simp [LineWhole, hdelim, hcalm, hbytes]
  · have hwhole : LineWhole delim r := by
      rcases hcuts.ok n rfl with hdelim | hcalm
      · exact .inl hdelim
      · exact .inr (.inl hcalm)
    exact iff_of_true (.inl ⟨n, rfl⟩) hwhole

/-! ### `file_read_line` -/

variable {E : Type} (into : IoError → E)

/-- The bytes that an answer delivers. -/
def lineBytes : Except E (List UInt8) → List UInt8
  | .ok bytes => bytes
  | .error _ => []

/-- A call of `file_read_line`, as a step of the reader. -/
def fileReadLineStep (fuel : ℕ) (_ : Unit) (r : BufReader) :
    Except Unit (Except E (List UInt8) × BufReader) :=
  (fileReadLine into fuel r).elim (.error ()) .ok

/-- A call delivers what it takes iff the line is whole. -/
theorem fileReadLine_step {fuel : ℕ} (hfuel : stepsLeft r < fuel) :
    ∃ answer r', fileReadLineStep into fuel () r = .ok (answer, r') ∧
      stepsLeft r' ≤ stepsLeft r ∧
      (rest r = lineBytes answer ++ rest r' ↔ LineWhole 10 r) := by
  obtain ⟨ret, bytes, r', hread, hrest, hsteps, hwhole⟩ := readUntil_whole 10 hfuel
  rw [← hwhole, hrest]
  -- The error drops the bytes; an answer delivers them.
  rcases ret with e | n
  · have hstep : fileReadLineStep into fuel () r = .ok (.error (into e), r') := by
      rw [fileReadLineStep, fileReadLine, hread]
      rfl
    refine ⟨.error (into e), r', hstep, hsteps, ?_⟩
    simp [lineBytes]
  · have hstep : fileReadLineStep into fuel () r = .ok (.ok bytes, r') := by
      rw [fileReadLineStep, fileReadLine, hread]
      rfl
    exact ⟨.ok bytes, r', hstep, hsteps, iff_of_true rfl (.inl ⟨n, rfl⟩)⟩

end BasicCli
