import BasicCli.File.Equiv.ReadUntil

/-!
# Reading a file by lines

Calling `file_read_line` again and again gives the lines of the file one by one and then empty lists
for ever (`fileReadLines_spec`), whatever the size of the reader's buffer and however the reads of
the file are cut or interrupted.
-/

namespace BasicCli

open StdIo LawfulBufRead

variable {E : Type} (into : IoError → E)

/-- The answers of `n` calls of `file_read_line` in a row. -/
def fileReadLines [Memchr] (fuel : ℕ) :
    (n : ℕ) → BufReader → Option (List (Except E (List UInt8)) × BufReader)
  | 0, bufReader => some ([], bufReader)
  | n + 1, bufReader => do
    let (answer, bufReader) ← fileReadLine into fuel bufReader
    let (answers, bufReader) ← fileReadLines fuel n bufReader
    return (answer :: answers, bufReader)

/-- The first `n` lines of `bs`, with empty ones behind the last. -/
def firstLines (n : ℕ) (bs : List UInt8) : List (List UInt8) :=
  (lines 10 bs ++ .replicate n []).take n

theorem firstLines_succ (n : ℕ) (bs : List UInt8) :
    firstLines (n + 1) bs = upTo 10 bs :: firstLines n (bs.drop (upTo 10 bs).length) := by
  unfold firstLines
  by_cases h : bs = []
  · rw [h]
    simp [lines, upTo, List.replicate_succ]
  · rw [lines_eq_cons h, List.cons_append, List.take_succ_cons, List.replicate_succ',
      ← List.append_assoc, List.take_append_of_le_length (by simp)]

theorem fileReadLine_spec [Memchr] {fuel : ℕ} {r : BufReader} (hcalm : OnlyInterrupted (errs r))
    (hfuel : stepsLeft r < fuel) :
    ∃ r', fileReadLine into fuel r = some (.ok (upTo 10 (rest r)), r') ∧
      rest r' = (rest r).drop (upTo 10 (rest r)).length ∧ errs r' <:+ errs r := by
  obtain ⟨r', hread, h⟩ := readUntil_spec 10 [] hcalm hfuel
  refine ⟨r', ?_, h⟩
  rw [fileReadLine, hread, List.nil_append]

theorem stepsLeft_le {R : Type} [LawfulBufRead R] {r r' : R} {k : ℕ}
    (hrest : rest r' = (rest r).drop k) (herrs : errs r' <:+ errs r) :
    stepsLeft r' ≤ stepsLeft r := by
  have hlen := herrs.length_le
  unfold stepsLeft
  rw [hrest, List.length_drop]
  omega

theorem fileReadLines_eq [Memchr] {fuel : ℕ} {r : BufReader} (hcalm : OnlyInterrupted (errs r))
    (hfuel : stepsLeft r < fuel) (n : ℕ) :
    ∃ r', fileReadLines into fuel n r = some ((firstLines n (rest r)).map .ok, r') := by
  induction n generalizing r with
  | zero => exact ⟨r, rfl⟩
  | succ n ih =>
    obtain ⟨r₁, hline, hrest, herrs⟩ := fileReadLine_spec into hcalm hfuel
    obtain ⟨r', hlines⟩ := ih (fun e h => hcalm e (herrs.mem h))
      (Nat.lt_of_le_of_lt (stepsLeft_le hrest herrs) hfuel)
    refine ⟨r', ?_⟩
    rw [fileReadLines, hline, firstLines_succ, ← hrest]
    show (fileReadLines into fuel n r₁).bind _ = _
    rw [hlines]
    rfl

/-- A new reader has all of the file before it. -/
theorem fileReader_spec (file : Source) (size : UInt64) :
    ∃ reader, fileReader into (.ok file) size (.ok ()) = .ok reader ∧ rest reader = file.rest ∧
      errs reader = file.errs := by
  unfold fileReader
  by_cases h : size > 0
  · exact ⟨.withCapacity size.toNat file (UInt64.lt_iff_toNat_lt.mp h),
      by simp only [h, ↓reduceDIte], rfl, rfl⟩
  · exact ⟨.new file, by simp only [h, ↓reduceDIte], rfl, rfl⟩

/-- **Reading a file by lines**: the calls of `file_read_line` on a new reader answer the lines of
the file in order and then empty lists only.  The lines concatenate to the file, each is non-empty
and has `\n` as its last byte or not at all, and all but the last end in it. -/
theorem fileReadLines_spec [Memchr] (file : Source) (size : UInt64)
    (hcalm : OnlyInterrupted file.errs) :
    (∃ reader, fileReader into (.ok file) size (.ok ()) = .ok reader ∧
      ∃ N, ∀ fuel ≥ N, ∀ n, ∃ reader', fileReadLines into fuel n reader =
        some (((lines 10 file.rest ++ .replicate n []).take n).map .ok, reader')) ∧
    (lines 10 file.rest).length = lineCount 10 file.rest ∧
    (lines 10 file.rest).flatten = file.rest ∧
    (∀ line ∈ lines 10 file.rest, line ≠ [] ∧ 10 ∉ line.dropLast) ∧
    ∀ line ∈ (lines 10 file.rest).dropLast, line.getLast? = some 10 := by
  refine ⟨?_, length_lines 10 _, flatten_lines 10 _,
    fun line h => ⟨ne_nil_of_mem_lines h, notMem_dropLast_of_mem_lines h⟩,
    fun line h => getLast?_of_mem_dropLast_lines h⟩
  obtain ⟨reader, hreader, hrest, herrs⟩ := fileReader_spec into file size
  refine ⟨reader, hreader, stepsLeft reader + 1, ?_⟩
  intro fuel hfuel n
  have hlines := fileReadLines_eq into (herrs ▸ hcalm) (Nat.lt_of_succ_le hfuel) n
  rwa [hrest] at hlines

/-- A file of a blank line and an unterminated one, read through a buffer of a single byte, with the
reads cut in the middle of the line and interrupted there. -/
theorem fileReadLines_spec_interrupted :
    OnlyInterrupted (Source.errs [.data 10 [97], .error ⟨.interrupted, ""⟩, .data 98 []]) ∧
    lines 10 (Source.rest [.data 10 [97], .error ⟨.interrupted, ""⟩, .data 98 []]) =
      [[10], [97, 98]] ∧
    ∃ reader, fileReader (fun e => e)
        (.ok [.data 10 [97], .error ⟨.interrupted, ""⟩, .data 98 []]) 1 (.ok ()) = .ok reader ∧
      ∃ N, ∀ fuel ≥ N, ∀ n, ∃ reader', fileReadLines (fun e => e) fuel n reader =
        some (((lines 10 (Source.rest [.data 10 [97], .error ⟨.interrupted, ""⟩, .data 98 []]) ++
          .replicate n []).take n).map .ok, reader') := by
  have h :
      OnlyInterrupted (Source.errs [.data 10 [97], .error ⟨.interrupted, ""⟩, .data 98 []]) := by
    intro e he
    rw [List.mem_singleton.mp he]
  exact ⟨h, by decide, (fileReadLines_spec (fun e => e) _ 1 h).1⟩

end BasicCli
