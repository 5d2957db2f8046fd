import BasicCli.File.Equiv.ReadUntil
import BasicCli.Hosted.Equiv.Lossy
import BasicCli.Stdin.Basic

/-!
# `hosted_stdin_line` beside `stdin_line`

Both make the same call of `read_line`, so they stand at the same place after any number of calls.
They give the same text for a line that does not end in `"\r\n"`; the end of the stream and a
failing read, which have no place in a `Str`, look like a line (`kth_line`).
-/

namespace BasicCli.Stdin

open StdIo LawfulBufRead Utf8

/-! ### Texts and the byte of `'\n'` -/

/-- A line without the byte has no newline. -/
theorem newline_notMem {cs : List Char} (h : 10 ∉ encode cs) : '\n' ∉ cs := by
  intro hmem
  exact h (List.mem_flatMap.mpr ⟨'\n', hmem, by decide⟩)

theorem readLine_encode (cs : List Char) : BasicCli.readLine (encode cs) = .ofList cs := by
  rw [BasicCli.readLine, fromUtf8?_encode]
  rfl

theorem readLine_of_not_valid {bytes : List UInt8} (h : ¬ Valid bytes) :
    BasicCli.readLine bytes = "" := by
  rw [BasicCli.readLine, fromUtf8?_of_not_valid h]
  rfl

/-- A text that does not end in a newline is not trimmed. -/
theorem trimEndMatchesNewline_of_getLast? {cs : List Char} (h : cs.getLast? ≠ some '\n') :
    trimEndMatchesNewline (.ofList cs) = .ofList cs := by
  rw [trimEndMatchesNewline, String.toList_ofList, List.rdropWhile_eq_self_iff.mpr]
  intro hne hlast
  exact h (by rw [List.getLast?_eq_some_getLast hne, of_decide_eq_true hlast])

theorem trimEndMatchesNewline_of_notMem {cs : List Char} (h : '\n' ∉ cs) :
    trimEndMatchesNewline (.ofList cs) = .ofList cs :=
  trimEndMatchesNewline_of_getLast? fun hlast => h (List.mem_of_getLast? hlast)

theorem trimEndMatchesNewline_concat {cs : List Char} (h : '\n' ∉ cs) :
    trimEndMatchesNewline (.ofList (cs ++ ['\n'])) = .ofList cs := by
  have htrim := trimEndMatchesNewline_of_notMem h
  rw [trimEndMatchesNewline, String.toList_ofList] at htrim ⊢
  rw [List.rdropWhile_concat_pos _ _ _ (by decide), htrim]

theorem popLineEnd_of_getLast? {cs : List Char} (h : cs.getLast? ≠ some '\n') :
    popLineEnd (.ofList cs) = .ofList cs := by
  rw [popLineEnd, String.toList_ofList, if_neg h]

/-- One newline is popped. -/
theorem popLineEnd_concat {cs : List Char} (h : cs.getLast? ≠ some '\r') :
    popLineEnd (.ofList (cs ++ ['\n'])) = .ofList cs := by
  rw [popLineEnd, String.toList_ofList, List.getLast?_concat, if_pos rfl, List.dropLast_concat]
  exact if_neg h

/-- **Without a carriage return** the two trims agree on a line. -/
theorem trim_eq_popLineEnd {cs : List Char} (hline : 10 ∉ (encode cs).dropLast)
    (hcr : ¬ [13, 10] <:+ encode cs) :
    trimEndMatchesNewline (.ofList cs) = popLineEnd (.ofList cs) := by
  by_cases hlast : cs.getLast? = some '\n'
  · -- One newline is at the end and no other before it, so both trims take just that.
    obtain ⟨ds, rfl⟩ := List.getLast?_eq_some_iff.mp hlast
    have henc : encode (ds ++ ['\n']) = encode ds ++ [10] := encode_append ds ['\n']
    rw [henc, List.dropLast_concat] at hline
    have hds : ds.getLast? ≠ some '\r' := by
      intro hds
      obtain ⟨es, rfl⟩ := List.getLast?_eq_some_iff.mp hds
      have henc' : encode (es ++ ['\r']) = encode es ++ [13] := encode_append es ['\r']
      rw [henc, henc', List.append_assoc] at hcr
      exact hcr (List.suffix_append _ _)
    rw [trimEndMatchesNewline_concat (newline_notMem hline), popLineEnd_concat hds]
  · rw [trimEndMatchesNewline_of_getLast? hlast, popLineEnd_of_getLast? hlast]

/-! ### One call -/

section

/-- The string of `read_line` does not depend on what `read_until` reports. -/
theorem appendToString_snd (ret : Except IoError ℕ) (bytes : List UInt8) :
    (appendToString ret bytes).2 = BasicCli.readLine bytes := by
  rw [appendToString, BasicCli.readLine]
  cases fromUtf8? bytes with
  | none => rfl
  | some line => rfl

variable [Memchr] {R : Type} [LawfulBufRead R]

/-- `hosted_stdin_line` on the bytes that `read_until` takes. -/
theorem hostedStdinLine_of_readUntil {fuel : ℕ} {stdin stdin' : R} {ret : Except IoError ℕ}
    {bytes : List UInt8} (h : readUntil fuel stdin 10 [] = some (ret, bytes, stdin')) :
    hostedStdinLine fuel stdin = some (BasicCli.hostedStdinLine bytes, stdin') := by
  rw [hostedStdinLine, readLine, h, BasicCli.hostedStdinLine, ← appendToString_snd ret]

variable {E : Type} (endOfFile : E) (into : IoError → E)

section

variable {fuel n : ℕ} {stdin stdin' : R}

/-- Nothing read is the end of the input. -/
theorem stdinLine_of_eof (h : readUntil fuel stdin 10 [] = some (.ok 0, [], stdin')) :
    stdinLine endOfFile into fuel stdin = some (.error endOfFile, stdin') := by
  rw [stdinLine, linesNext, readLine, h]
  rfl

/-- **A line that is read** is answered without its end. -/
theorem stdinLine_of_line {cs : List Char} (hn : 0 < n)
    (h : readUntil fuel stdin 10 [] = some (.ok n, encode cs, stdin')) :
    stdinLine endOfFile into fuel stdin =
      some (.ok (.fromStr (popLineEnd (.ofList cs))), stdin') := by
  obtain ⟨n, rfl⟩ := Nat.exists_eq_succ_of_ne_zero (Nat.pos_iff_ne_zero.mp hn)
  rw [stdinLine, linesNext, readLine, h]
  simp only [appendToString, fromUtf8?_encode]

/-- A line that is not UTF-8 is an error, and has been taken. -/
theorem stdinLine_of_not_valid {bytes : List UInt8} (hbytes : ¬ Valid bytes)
    (h : readUntil fuel stdin 10 [] = some (.ok n, bytes, stdin')) :
    stdinLine endOfFile into fuel stdin = some (.error (into invalidUtf8), stdin') := by
  rw [stdinLine, linesNext, readLine, h]
  simp only [appendToString, fromUtf8?_of_not_valid hbytes]
  rfl

/-- A failing read is answered as it is, whatever has been read before. -/
theorem stdinLine_of_error {e : IoError} {bytes : List UInt8}
    (h : readUntil fuel stdin 10 [] = some (.error e, bytes, stdin')) :
    stdinLine endOfFile into fuel stdin = some (.error (into e), stdin') := by
  rw [stdinLine, linesNext, readLine, h]
  by_cases hbytes : Valid bytes
  · obtain ⟨cs, rfl⟩ := hbytes
    simp only [appendToString, fromUtf8?_encode]
  · simp only [appendToString, fromUtf8?_of_not_valid hbytes]
    rfl

end

end

section

variable [Memchr] {E : Type} (endOfFile : E) (into : IoError → E)

/-- The new function gives `s` for a line that the old one reads. -/
def LooksRead (s : RocStr) : Prop :=
  ∃ (source : Source) (fuel : ℕ) (line : RocStr) (stdin : BufReader),
    stdinLine endOfFile into fuel (BufReader.new source) = some (.ok line, stdin) ∧
      hostedStdinLine fuel (BufReader.new source) = some (s, stdin)

/-- What becomes of the old function's result. -/
structure LineKept (bytes : List UInt8) (old : Except E RocStr) (new : RocStr) : Prop where
  line : ∀ s, old = .ok s → ¬ [13, 10] <:+ bytes → new = s
  failed : ∀ e, old = .error e →
    new = .fromStr (BasicCli.readLine bytes) ∧ LooksRead endOfFile into new

/-- Every text without a newline could be that of a line. -/
theorem looksRead (cs : List Char) (h : 10 ∉ encode cs) :
    LooksRead endOfFile into (.fromStr (.ofList cs)) := by
  have hline : encode (cs ++ ['\n']) = encode cs ++ [10] := encode_append cs ['\n']
  let stdin := BufReader.new (Source.push (encode (cs ++ ['\n'])) [])
  have hrest : rest stdin = encode (cs ++ ['\n']) := by
    show [] ++ Source.rest (Source.push _ []) = _
    rw [Source.rest_push, List.nil_append]
    exact List.append_nil _
  have herrs : errs stdin = [] := Source.errs_push _ []
  have hcalm : OnlyInterrupted (errs stdin) := by
    rw [herrs]
    exact fun e he => absurd he List.not_mem_nil
  obtain ⟨stdin', hread, -, -⟩ :=
    readUntil_spec 10 [] hcalm (Nat.lt_succ_self (stepsLeft stdin))
  rw [hrest, hline, upTo_append_cons h, ← hline, List.nil_append] at hread
  have hpos : 0 < (encode (cs ++ ['\n'])).length := by
    rw [hline, List.length_append]
    exact Nat.succ_pos _
  refine ⟨_, _, _, stdin', stdinLine_of_line endOfFile into hpos hread, ?_⟩
  rw [hostedStdinLine_of_readUntil hread, BasicCli.hostedStdinLine, readLine_encode,
    trimEndMatchesNewline_concat (newline_notMem h)]

variable {endOfFile into}

/-- Where the old function fails, no line end has been read. -/
theorem LineKept.of_error {bytes : List UInt8} {e : E} (h : Valid bytes → 10 ∉ bytes) :
    LineKept endOfFile into bytes (.error e) (BasicCli.hostedStdinLine bytes) where
  line := by simp
  failed := by
    intro _ _
    rw [BasicCli.hostedStdinLine]
    by_cases hbytes : Valid bytes
    · obtain ⟨cs, rfl⟩ := hbytes
      have hnewline := h (valid_encode cs)
      rw [readLine_encode, trimEndMatchesNewline_of_notMem (newline_notMem hnewline)]
      exact ⟨rfl, looksRead endOfFile into cs hnewline⟩
    · rw [readLine_of_not_valid hbytes]
      exact ⟨rfl, looksRead endOfFile into [] List.not_mem_nil⟩

theorem LineKept.of_ok {cs : List Char} (h : 10 ∉ (encode cs).dropLast) :
    LineKept endOfFile into (encode cs) (.ok (.fromStr (popLineEnd (.ofList cs))))
      (BasicCli.hostedStdinLine (encode cs)) where
  line := by
    rintro s ⟨⟩ hcr
    rw [BasicCli.hostedStdinLine, readLine_encode, trim_eq_popLineEnd h hcr]
  failed := by simp

variable (endOfFile into)

/-- **One call of each**, from the same place. -/
theorem line_step {R : Type} [LawfulBufRead R] {fuel : ℕ} {stdin : R}
    (hfuel : stepsLeft stdin < fuel) :
    ∃ bytes old new stdin', stdinLine endOfFile into fuel stdin = some (old, stdin') ∧
      hostedStdinLine fuel stdin = some (new, stdin') ∧ rest stdin = bytes ++ rest stdin' ∧
      stepsLeft stdin' ≤ stepsLeft stdin ∧ LineKept endOfFile into bytes old new := by
  obtain ⟨ret, bytes, stdin', hread, hreads⟩ := readUntilLoop_reads 10 [] 0 hfuel
  rw [List.nil_append] at hread
  have hnew := hostedStdinLine_of_readUntil hread
  have hdropLast := hreads.notMem_dropLast
  -- What the new function gives and what is left behind are settled by the bytes alone.
  suffices hold : ∃ old, stdinLine endOfFile into fuel stdin = some (old, stdin') ∧
      LineKept endOfFile into bytes old (BasicCli.hostedStdinLine bytes) by
    obtain ⟨old, hold, hkept⟩ := hold
    exact ⟨bytes, old, _, stdin', hold, hnew, hreads.rest_eq, hreads.stepsLeft_le, hkept⟩
  cases ret with
  | error e =>
    exact ⟨_, stdinLine_of_error endOfFile into hread, .of_error fun _ => (hreads.error e rfl).1⟩
  | ok n =>
    by_cases hbytes : Valid bytes
    · obtain ⟨cs, rfl⟩ := hbytes
      have hn : n = (encode cs).length := by rw [(hreads.ok n rfl).1, Nat.zero_add]
      rcases Nat.eq_zero_or_pos n with hzero | hpos
      · -- `Ok(0)` is the end of the stream.
        have hnil : encode cs = [] := List.eq_nil_of_length_eq_zero (hn.symm.trans hzero)
        rw [hzero, hnil] at hread
        rw [hnil]
        exact ⟨_, stdinLine_of_eof endOfFile into hread, .of_error fun _ => List.not_mem_nil⟩
      · exact ⟨_, stdinLine_of_line endOfFile into hpos hread, .of_ok hdropLast⟩
    · exact ⟨_, stdinLine_of_not_valid endOfFile into hbytes hread,
        .of_error fun h => absurd h hbytes⟩

/-- **The `k`-th calls** take the same bytes, and the line is kept but for a carriage return at its
end; a failure gives a text that a line could have given. -/
theorem kth_line (stdin : BufReader) {fuel : ℕ}
    (hfuel : stepsLeft stdin < fuel) (k : ℕ) :
    ∃ stdinₖ, afterCalls (stdinLine endOfFile into fuel) k stdin = some stdinₖ ∧
      afterCalls (hostedStdinLine fuel) k stdin = some stdinₖ ∧
      ∃ bytes old new stdin', stdinLine endOfFile into fuel stdinₖ = some (old, stdin') ∧
        hostedStdinLine fuel stdinₖ = some (new, stdin') ∧
        rest stdinₖ = bytes ++ rest stdin' ∧ LineKept endOfFile into bytes old new := by
  -- Every call leaves a reader with no more steps than the fuel.
  induction k generalizing stdin with
  | zero =>
    obtain ⟨bytes, old, new, stdin', hold, hnew, hrest, -, hkept⟩ :=
      line_step endOfFile into hfuel
    exact ⟨stdin, rfl, rfl, bytes, old, new, stdin', hold, hnew, hrest, hkept⟩
  | succ k ih =>
    obtain ⟨bytes, old, new, stdin', hold, hnew, -, hsteps, -⟩ := line_step endOfFile into hfuel
    obtain ⟨stdinₖ, holdₖ, hnewₖ, h⟩ := ih stdin' (Nat.lt_of_le_of_lt hsteps hfuel)
    refine ⟨stdinₖ, ?_, ?_, h⟩
    · rw [afterCalls, hold]
      exact holdₖ
    · rw [afterCalls, hnew]
      exact hnewₖ

end

/-- Standard input with the line `"hi"` and an empty one. -/
def twoLines : BufReader := .new [.data 104 [105], .data 10 [10]]

theorem kth_line_two :
    ∃ stdinₖ, afterCalls (stdinLine () (fun _ => ()) 5) 1 twoLines = some stdinₖ ∧
      afterCalls (hostedStdinLine 5) 1 twoLines = some stdinₖ ∧
      ∃ bytes old new stdin', stdinLine () (fun _ => ()) 5 stdinₖ = some (old, stdin') ∧
        hostedStdinLine 5 stdinₖ = some (new, stdin') ∧
        rest stdinₖ = bytes ++ rest stdin' ∧ LineKept () (fun _ => ()) bytes old new :=
  kth_line () (fun _ => ()) twoLines (by decide) 1

/-- An empty line and the end of the stream give the same text, and of `"a\r\n"` the carriage return
is kept. -/
theorem not_kth_line_kept :
    (stdinLine () (fun _ => ()) 1 (BufReader.new [])).map Prod.fst = some (.error ()) ∧
      (stdinLine () (fun _ => ()) 2 (BufReader.new [.data 10 []])).map Prod.fst =
        some (.ok .empty) ∧
      (hostedStdinLine 1 (BufReader.new [])).map Prod.fst =
        (hostedStdinLine 2 (BufReader.new [.data 10 []])).map Prod.fst ∧
      (stdinLine () (fun _ => ()) 2 (BufReader.new [.data 97 [13, 10]])).map Prod.fst =
        some (.ok (.fromStr "a")) ∧
      (hostedStdinLine 2 (BufReader.new [.data 97 [13, 10]])).map Prod.fst =
        some (.fromStr "a\r") := by
  decide

end BasicCli.Stdin
