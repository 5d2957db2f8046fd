import BasicCli.File.Equiv.Panics
import BasicCli.File.ProcessLine

/-!
# The summary of a file

Whatever the size of the buffer, if there is room for it, and however the reads of the file are cut,
`process_line!` counts the lines and the bytes of the file, unless a read of it fails
(`processLine_spec`).
-/

namespace BasicCli

open StdIo LawfulBufRead Memchr

/-- A `read_until` that does not fail has met interruptions only. -/
theorem errs_of_readUntilLoop [Memchr] {delim : UInt8} {fuel n read : ℕ} {r r' : BufReader}
    {buf buf' : List UInt8} (h : readUntilLoop delim fuel r buf read = some (.ok n, buf', r')) :
    ∀ e ∈ r.errs, e.kind = .interrupted ∨ e ∈ r'.errs := by
  -- Every failure that the loop gets past is an interruption.
  induction fuel generalizing r buf read with
  | zero => cases h
  | succ fuel ih =>
    rcases hfill : r.fillBuf with ⟨e | available, r₁⟩
    · have herrs : r.errs = e :: r₁.errs := (BufReader.fillBuf_error hfill).2
      by_cases he : e.kind = .interrupted
      · rw [readUntilLoop_of_interrupted hfill he] at h
        intro e' he'
        rw [herrs] at he'
        obtain rfl | he' := List.mem_cons.mp he'
        · exact .inl he
        · exact ih h e' he'
      · rw [readUntilLoop_of_error hfill he] at h
        cases h
    · have herrs : r₁.errs = r.errs := (BufReader.fillBuf_ok hfill).2.2.1
      rcases hmem : memchr delim available with _ | i
      · by_cases hnil : available = []
        · subst hnil
          rw [readUntilLoop_of_eof hfill] at h
          cases h
          exact fun e he => .inr (herrs ▸ he)
        · rw [readUntilLoop_of_more hfill hnil hmem] at h
          exact fun e he => ih h e (herrs ▸ he)
      · rw [readUntilLoop_of_found hfill hmem] at h
        cases h
        exact fun e he => .inr (herrs ▸ he)

section

variable [Memchr] {E : Type} (into : IoError → E)

/-- **A call of `file_read_line`** takes the next line, or fails as a read of the file does. -/
theorem fileReadLine_cases {fuel : ℕ} {r : BufReader} (hfuel : stepsLeft r < fuel) :
    (∃ e ∈ r.errs, e.kind ≠ .interrupted ∧ ∃ r',
      fileReadLine into fuel r = some (.error (into e), r')) ∨
    ∃ r', fileReadLine into fuel r = some (.ok (upTo 10 r.rest), r') ∧
      r.rest = upTo 10 r.rest ++ r'.rest ∧ r'.errs <:+ r.errs ∧ stepsLeft r' ≤ stepsLeft r ∧
      (OnlyInterrupted r.errs ↔ OnlyInterrupted r'.errs) ∧
      (r.rest = [] → OnlyInterrupted r.errs) := by
  obtain ⟨ret, bytes, r', hread, hreads⟩ := readUntilLoop_reads 10 [] 0 hfuel
  rw [List.nil_append] at hread
  have hline : fileReadLine into fuel r = some ((ret.map fun _ => bytes).mapError into, r') := by
    rw [fileReadLine, readUntil, hread]
    cases ret <;> rfl
  cases ret with
  | error e =>
    obtain ⟨-, hmem, hkind⟩ := hreads.error e rfl
    exact .inl ⟨e, hmem, hkind, r', hline⟩
  | ok n =>
    obtain ⟨-, hbytes⟩ := hreads.ok n rfl
    have hbytes : bytes = upTo 10 r.rest := hbytes
    refine .inr ⟨r', hbytes ▸ hline, hbytes ▸ hreads.rest_eq, hreads.errs_suffix,
      hreads.stepsLeft_le, ?_, ?_⟩
    · constructor
      · exact fun hcalm e he => hcalm e (hreads.errs_suffix.mem he)
      · intro hcalm e he
        obtain hkind | he := errs_of_readUntilLoop hread e he
        · exact hkind
        · exact hcalm e he
    · -- Nothing is left, so the loop has seen the end and every failure before it.
      intro hnil
      obtain ⟨bytes', -, hcuts⟩ := readUntilLoop_cuts hread
      obtain hmem | hcalm := hcuts.ok n rfl
      · have hrest := r.beforeFailure_isPrefix.subset hmem
        rw [hnil] at hrest
        cases hrest
      · exact hcalm

/-- The summary of so many lines and bytes. -/
def ReadSummary.ofNat (linesRead bytesRead : ℕ) : ReadSummary :=
  ⟨.ofNat linesRead, .ofNat bytesRead⟩

/-- `process_line!` adds the next line to its summary. -/
theorem processLine_succ {fuel : ℕ} {r r' : BufReader} {line : List UInt8}
    (rounds linesRead bytesRead : ℕ) (hline : fileReadLine into fuel r = some (.ok line, r'))
    (hnil : line ≠ []) (hlines : linesRead + 1 < 2 ^ 64)
    (hbytes : bytesRead + line.length < 2 ^ 64) :
    processLine into fuel (rounds + 1) r (.ofNat linesRead bytesRead) =
      processLine into fuel rounds r' (.ofNat (linesRead + 1) (bytesRead + line.length)) := by
  obtain ⟨b, bytes, rfl⟩ := List.exists_cons_of_ne_nil hnil
  have hone : Num.addU64 (.ofNat linesRead) 1 = .ok (.ofNat (linesRead + 1)) :=
    Num.addU64_ofNat hlines
  rw [ReadSummary.ofNat, processLine, hline]
  dsimp only
  rw [hone]
  dsimp only
  rw [Num.addU64_ofNat hbytes]
  rfl

theorem processLine_from {fuel rounds : ℕ} {r : BufReader} (hfuel : stepsLeft r < fuel)
    (hrounds : r.rest.length < rounds) {linesRead bytesRead : ℕ}
    (hlines : linesRead + r.rest.length < 2 ^ 64) (hbytes : bytesRead + r.rest.length < 2 ^ 64) :
    (OnlyInterrupted r.errs → processLine into fuel rounds r (.ofNat linesRead bytesRead) =
      some (.ok (.ok
        (.ofNat (linesRead + (lines 10 r.rest).length) (bytesRead + r.rest.length))))) ∧
    (¬ OnlyInterrupted r.errs → ∃ e ∈ r.errs, e.kind ≠ .interrupted ∧
      processLine into fuel rounds r (.ofNat linesRead bytesRead) =
        some (.ok (.error (into e)))) := by
  -- On the rounds: each takes a line, so that fewer bytes than rounds are left.
  induction rounds generalizing r linesRead bytesRead with
  | zero => omega
  | succ rounds ih =>
    obtain ⟨e, hmem, hkind, r', hline⟩ | ⟨r', hline, hrest, herrs, hsteps, hcalm, hend⟩ :=
      fileReadLine_cases into hfuel
    · refine ⟨fun hcalm => absurd (hcalm e hmem) hkind, fun _ => ⟨e, hmem, hkind, ?_⟩⟩
      rw [ReadSummary.ofNat, processLine, hline]
    by_cases hnil : r.rest = []
    · rw [hnil] at hline
      refine ⟨fun _ => ?_, fun hcalm => absurd (hend hnil) hcalm⟩
      rw [ReadSummary.ofNat, processLine, hline, hnil]
      rfl
    · have hne : upTo 10 r.rest ≠ [] := upTo_ne_nil hnil
      have hlength : r.rest.length = (upTo 10 r.rest).length + r'.rest.length := by
        rw [← List.length_append, ← hrest]
      have hlines' : lines 10 r.rest = upTo 10 r.rest :: lines 10 r'.rest := by
        have hdrop : r.rest.drop (upTo 10 r.rest).length = r'.rest :=
          List.append_cancel_left ((upTo_append_drop 10 r.rest).trans hrest)
        rw [lines_eq_cons hnil, hdrop]
      have hpos : 0 < (upTo 10 r.rest).length := List.length_pos_iff.mpr hne
      have hlinesLeft : linesRead + 1 + r'.rest.length < 2 ^ 64 := by omega
      have hbytesLeft : bytesRead + (upTo 10 r.rest).length + r'.rest.length < 2 ^ 64 := by omega
      have hstep := processLine_succ into rounds linesRead bytesRead hline hne (by omega) (by omega)
      obtain ⟨hok, herror⟩ :=
        ih (Nat.lt_of_le_of_lt hsteps hfuel) (by omega) hlinesLeft hbytesLeft
      rw [hstep, hlines', List.length_cons]
      refine ⟨fun h => ?_, fun h => ?_⟩
      · rw [hok (hcalm.mp h), hlength, Nat.add_assoc, Nat.add_comm 1, Nat.add_assoc bytesRead]
      · obtain ⟨e, hmem, hkind, hrun⟩ := herror (mt hcalm.mpr h)
        exact ⟨e, herrs.mem hmem, hkind, hrun⟩

/-- **The summary of a file** that is opened: its number of lines and its length, or the failure of
a read. -/
theorem processLine_spec (file : Source) {granted : ℕ → Bool} {size : UInt64}
    (hroom : Room granted (readerCapacity size)) (hlength : file.rest.length < 2 ^ 64) :
    ∃ reader, fileReaderOrPanic into granted (.ok file) size (.ok ()) (.ok ()) =
        .ok (.ok reader) ∧
      ∃ N, ∀ fuel ≥ N, ∀ rounds ≥ N,
        (OnlyInterrupted file.errs → ∃ summary,
          processLine into fuel rounds reader ⟨0, 0⟩ = some (.ok (.ok summary)) ∧
          summary.linesRead.toNat = lineCount 10 file.rest ∧
          summary.bytesRead.toNat = file.rest.length) ∧
        (¬ OnlyInterrupted file.errs → ∃ e ∈ file.errs, e.kind ≠ .interrupted ∧
          processLine into fuel rounds reader ⟨0, 0⟩ = some (.ok (.error (into e)))) := by
  obtain ⟨reader, hreader, hrest, herrs⟩ := fileReader_spec into file size
  have hrest : reader.rest = file.rest := hrest
  have herrs : reader.errs = file.errs := herrs
  refine ⟨reader, ?_, stepsLeft reader + 1, fun fuel hfuel rounds hrounds => ?_⟩
  · rw [fileReaderOrPanic_eq into hroom, hreader]
  have hrounds : reader.rest.length < rounds :=
    Nat.lt_of_le_of_lt (Nat.le_add_right _ _) (Nat.lt_of_succ_le hrounds)
  have hlt : 0 + reader.rest.length < 2 ^ 64 := by rwa [hrest, Nat.zero_add]
  obtain ⟨hok, herror⟩ := processLine_from into (Nat.lt_of_succ_le hfuel) hrounds hlt hlt
  rw [hrest, herrs, length_lines, Nat.zero_add, Nat.zero_add] at hok
  rw [herrs] at herror
  refine ⟨fun hcalm => ⟨_, hok hcalm, ?_, ?_⟩, herror⟩
  · have hle : lineCount 10 file.rest ≤ file.rest.length := lineCount_le_length 10 file.rest
    exact UInt64.toNat_ofNat_of_lt' (Nat.lt_of_le_of_lt hle hlength)
  · exact UInt64.toNat_ofNat_of_lt' hlength

end

/-- A file of two lines, the second without an end, through a buffer of one byte. -/
theorem processLine_spec_two :
    ∃ reader, fileReaderOrPanic id (fun bytes => bytes ≤ 1048576)
        (.ok [.data 104 [105, 10], .error ⟨.interrupted, ""⟩, .data 33 []]) 1 (.ok ()) (.ok ()) =
        .ok (.ok reader) ∧
      ∃ N, ∀ fuel ≥ N, ∀ rounds ≥ N, ∃ summary,
        processLine id fuel rounds reader ⟨0, 0⟩ = some (.ok (.ok summary)) ∧
        summary.linesRead.toNat = 2 ∧ summary.bytesRead.toNat = 4 := by
  have hroom : Room (fun bytes => bytes ≤ 1048576) (readerCapacity 1) := by decide
  obtain ⟨reader, hreader, N, h⟩ := processLine_spec id
    [.data 104 [105, 10], .error ⟨.interrupted, ""⟩, .data 33 []] hroom (by decide)
  refine ⟨reader, hreader, N, fun fuel hfuel rounds hrounds => ?_⟩
  exact (h fuel hfuel rounds hrounds).1 fun e he => by
    rw [List.mem_singleton.mp he]

end BasicCli
