import BasicCli.File.Equiv.Loss
import BasicCli.Stdin.Equiv.Line
import BasicCli.Stdin.Mixed

/-!
# What mixed reads take

However the reads of standard input are mixed, and whether or not they fail, each takes the next
piece of it: none takes what another has taken, and nothing is left out (`stdin_calls`).  A read
that succeeds gives back what it takes, but for the end of a line, and one that fails has come to a
failure, or to a line that is not UTF-8, or to the end.
-/

namespace BasicCli.StdIo

namespace Source

/-- **`read_to_end` ends**, on whatever source: with all that is to come, or with the next failure,
having taken what comes before. -/
theorem readToEnd_reads (sizes : ℕ → List UInt8 → ℕ) {fuel : ℕ} (s : Source) (buf : List UInt8)
    (hfuel : s.rest.length + s.errs.length < fuel) :
    ∃ res taken s', readToEnd sizes fuel s buf = some (res, s') ∧ s.rest = taken ++ s'.rest ∧
      s'.errs <:+ s.errs ∧
      (∀ bytes, res = .ok bytes → bytes = buf ++ taken ∧ s'.rest = [] ∧ OnlyInterrupted s.errs) ∧
      ∀ e, res = .error e → s.failure? = some (e, s') ∧ taken = s.beforeFailure := by
  induction fuel generalizing s buf with
  | zero => omega
  | succ fuel ih =>
    -- Each pass takes a byte or a failure off what is to come.
    rw [readToEnd]
    rcases hread : s.read (sizes fuel buf + 1) with ⟨e | _ | ⟨b, bs⟩, s₁⟩
    · obtain ⟨hrest, herrs⟩ := read_error hread
      have hsuffix : s₁.errs <:+ s.errs := herrs ▸ List.suffix_cons e _
      by_cases he : e.kind = .interrupted
      · rw [herrs, List.length_cons] at hfuel
        obtain ⟨res, taken, s', hloop, htaken, herrs', hok, herror⟩ :=
          ih s₁ buf (by rw [hrest]; omega)
        simp only [if_pos he]
        refine ⟨res, taken, s', hloop, hrest ▸ htaken, herrs'.trans hsuffix, ?_, ?_⟩
        · intro bytes hbytes
          obtain ⟨hbuf, hend, hcalm⟩ := hok bytes hbytes
          rw [herrs]
          exact ⟨hbuf, hend, List.forall_mem_cons.mpr ⟨he, hcalm⟩⟩
        · rw [eq_cons_of_read_error hread, failure?_error, beforeFailure, if_pos he, if_pos he]
          exact herror
      · simp only [if_neg he]
        refine ⟨.error e, [], s₁, rfl, hrest.symm, hsuffix, (fun _ h => by cases h), ?_⟩
        rintro e' ⟨⟩
        rw [eq_cons_of_read_error hread, failure?_error, beforeFailure, if_neg he, if_neg he]
        exact ⟨rfl, rfl⟩
    · obtain ⟨hrest, herrs, -, hnil⟩ := read_ok hread
      refine ⟨.ok buf, [], s₁, rfl, hrest, herrs ▸ List.suffix_rfl, ?_, fun _ h => by cases h⟩
      rintro bytes ⟨⟩
      refine ⟨(List.append_nil _).symm, ?_, ?_⟩
      · rw [hnil (Nat.succ_pos _) rfl, List.nil_append] at hrest
        exact hrest.symm
      · rw [errs_of_read_nil (Nat.succ_pos _) hread]
        exact fun e he => absurd he List.not_mem_nil
    · obtain ⟨hrest, herrs, -⟩ := read_ok hread
      rw [hrest, List.length_append, List.length_cons, ← herrs] at hfuel
      obtain ⟨res, taken, s', hloop, htaken, herrs', hok, herror⟩ :=
        ih s₁ (buf ++ b :: bs) (by omega)
      refine ⟨res, b :: bs ++ taken, s', hloop, ?_, herrs ▸ herrs', ?_, ?_⟩
      · rw [hrest, htaken, List.append_assoc]
      · intro bytes hbytes
        obtain ⟨rfl, hend, hcalm⟩ := hok bytes hbytes
        exact ⟨by rw [List.append_assoc], hend, herrs ▸ hcalm⟩
      · intro e he
        obtain ⟨hfailure, htaken'⟩ := herror e he
        rw [failure?_read_ok hread, beforeFailure_read_ok hread, htaken']
        exact ⟨hfailure, rfl⟩

end Source

theorem BufReader.readToEnd_reads (sizes : ℕ → List UInt8 → ℕ) {fuel : ℕ} (r : BufReader)
    (hfuel : r.rest.length + r.errs.length < fuel) :
    ∃ res taken r', r.readToEnd sizes fuel = some (res, r') ∧ r.rest = taken ++ r'.rest ∧
      r'.errs <:+ r.errs ∧
      (∀ bytes, res = .ok bytes → bytes = taken ∧ r'.rest = [] ∧ OnlyInterrupted r.errs) ∧
      ∀ e, res = .error e → r.events.failure? = some (e, r'.events) ∧ taken = r.beforeFailure := by
  have hinner : r.inner.rest.length + r.inner.errs.length < fuel := by
    rw [rest, errs, List.length_append] at hfuel
    omega
  obtain ⟨res, taken, s', hread, htaken, herrs, hok, herror⟩ :=
    r.inner.readToEnd_reads sizes r.buf hinner
  refine ⟨res, r.buf ++ taken, { r with buf := [], inner := s' }, ?_, ?_, herrs, hok, ?_⟩
  · rw [readToEnd, hread]
  · rw [rest, htaken, List.append_assoc]
    rfl
  · intro e he
    obtain ⟨hfailure, htaken'⟩ := herror e he
    rw [failure?_events, beforeFailure, htaken']
    exact ⟨hfailure, rfl⟩

end BasicCli.StdIo

namespace BasicCli.Stdin

open StdIo LawfulBufRead Utf8

section

variable {E : Type} (endOfFile : E) (into : IoError → E)

/-! ### Pieces -/

/-- What a read that answers so takes of the events `before`, where it leaves `behind`.  An error is
that of the next failure, and what has come before is gone; but a line that is not UTF-8 is an error
as well, and so is the end of the input where a line is asked for. -/
def StdinCall.Takes (piece : List UInt8) (before behind : Source) :
    StdinCall → StdinAnswer E → Prop
  | line, .line (.ok s) =>
    piece ≠ [] ∧ piece = upTo 10 before.rest ∧
      (10 ∈ before.beforeFailure ∨ OnlyInterrupted before.errs) ∧
      behind.failure? = before.failure? ∧
      ∃ cs, piece = encode cs ∧ s = .fromStr (popLineEnd (.ofList cs))
  | line, .line (.error e) =>
    e = endOfFile ∧ before.rest = [] ∧ OnlyInterrupted before.errs ∨
      e = into invalidUtf8 ∧ ¬ Valid piece ∧ piece = upTo 10 before.rest ∧
        behind.failure? = before.failure? ∨
      ∃ ioErr, e = into ioErr ∧ before.failure? = some (ioErr, behind) ∧
        piece = before.beforeFailure ∧ 10 ∉ piece
  | bytes, .bytes (.ok bs) =>
    bs = piece ∧ bs.length ≤ bufSize ∧ behind.errs = before.errs ∧ (bs = [] → before.rest = [])
  | bytes, .bytes (.error e) =>
    piece = [] ∧ ∃ ioErr, e = into ioErr ∧ before = .error ioErr :: behind
  | readToEnd, .bytes (.ok bs) => bs = piece ∧ behind.rest = [] ∧ OnlyInterrupted before.errs
  | readToEnd, .bytes (.error e) =>
    ∃ ioErr, e = into ioErr ∧ before.failure? = some (ioErr, behind) ∧ piece = before.beforeFailure
  | _, _ => False

/-- The calls, with what they answer, take one piece after the other. -/
def Pieces : List (StdinCall × StdinAnswer E) → Source → Source → Prop
  | [], before, behind => before = behind
  | (call, answer) :: calls, before, behind =>
    ∃ piece between, before.rest = piece ++ between.rest ∧
      call.Takes endOfFile into piece before between answer ∧ Pieces calls between behind

/-- A piece by an answer that has given it back, a line without its end. -/
def StdinAnswer.GivesBack : StdinAnswer E → List UInt8 → Prop
  | line (.ok s), piece => ∃ ending ∈ [[], [10], [13, 10]], piece = s.bytes ++ ending
  | bytes (.ok bs), piece => piece = bs
  | _, _ => False

/-- The read has not failed, and has not found the end of the input instead of a line. -/
def StdinAnswer.IsOk : StdinAnswer E → Prop
  | line res => ∃ s, res = .ok s
  | bytes res => ∃ bs, res = .ok bs

/-! ### Line ends -/

/-- What is popped off a line. -/
theorem exists_ending (cs : List Char) :
    ∃ ending ∈ [[], [10], [13, 10]],
      encode cs = (RocStr.fromStr (popLineEnd (.ofList cs))).bytes ++ ending := by
  have hbytes : ∀ ds : List Char, (RocStr.fromStr (.ofList ds)).bytes = encode ds := by
    intro ds
    show encode (String.ofList ds).toList = _
    rw [String.toList_ofList]
  -- The line ends with `\r\n`, with `\n`, or at the end of the input.
  by_cases hnewline : cs.getLast? = some '\n'
  · obtain ⟨ds, rfl⟩ := List.getLast?_eq_some_iff.mp hnewline
    by_cases hreturn : ds.getLast? = some '\r'
    · obtain ⟨es, rfl⟩ := List.getLast?_eq_some_iff.mp hreturn
      have hpop : popLineEnd (.ofList (es ++ ['\r'] ++ ['\n'])) = .ofList es := by
        rw [popLineEnd, String.toList_ofList, if_pos hnewline, List.dropLast_concat]
        dsimp only
        rw [if_pos hreturn, List.dropLast_concat]
      refine ⟨[13, 10], by decide, ?_⟩
      rw [hpop, hbytes, List.append_assoc]
      exact encode_append es ['\r', '\n']
    · refine ⟨[10], by decide, ?_⟩
      rw [popLineEnd_concat hreturn, hbytes]
      exact encode_append ds ['\n']
  · refine ⟨[], by decide, ?_⟩
    rw [popLineEnd_of_getLast? hnewline, hbytes, List.append_nil]

variable {endOfFile into}

theorem StdinCall.Takes.givesBack {call : StdinCall} {answer : StdinAnswer E}
    {piece : List UInt8} {before behind : Source}
    (h : call.Takes endOfFile into piece before behind answer) (hok : answer.IsOk) :
    answer.GivesBack piece := by
  cases answer with
  | line res =>
    obtain ⟨s, rfl⟩ := hok
    cases call with
    | line =>
      obtain ⟨-, -, -, -, cs, rfl, rfl⟩ := h
      exact exists_ending cs
    | bytes | readToEnd => exact h.elim
  | bytes res =>
    obtain ⟨bs, rfl⟩ := hok
    cases call with
    | line => exact h.elim
    | bytes | readToEnd => exact h.1.symm

/-- Calls that do not fail give back all that they take. -/
theorem Pieces.givesBack {calls : List (StdinCall × StdinAnswer E)} {before behind : Source}
    (h : Pieces endOfFile into calls before behind) (hok : ∀ call ∈ calls, call.2.IsOk) :
    ∃ pieces, List.Forall₂ StdinAnswer.GivesBack (calls.map Prod.snd) pieces ∧
      before.rest = pieces.flatten ++ behind.rest := by
  induction calls generalizing before with
  | nil => exact ⟨[], .nil, congrArg Source.rest h⟩
  | cons call calls ih =>
    obtain ⟨piece, between, hrest, htakes, hcalls⟩ := h
    obtain ⟨pieces, hgives, hbehind⟩ :=
      ih hcalls fun call' h' => hok call' (List.mem_cons_of_mem call h')
    refine ⟨piece :: pieces, .cons (htakes.givesBack (hok call List.mem_cons_self)) hgives, ?_⟩
    rw [hrest, hbehind, List.flatten_cons, List.append_assoc]

/-! ### Calls -/

variable (endOfFile into)

theorem stdinLine_takes [Memchr] {fuel : ℕ} {stdin : BufReader} (hfuel : stepsLeft stdin < fuel) :
    ∃ res piece stdin', stdinLine endOfFile into fuel stdin = some (res, stdin') ∧
      stdin.rest = piece ++ stdin'.rest ∧ stdin'.errs <:+ stdin.errs ∧
      StdinCall.line.Takes endOfFile into piece stdin.events stdin'.events (.line res) := by
  obtain ⟨ret, piece, stdin', hread, hreads⟩ := readUntilLoop_reads 10 [] 0 hfuel
  rw [List.nil_append] at hread
  have hrest : stdin.rest = piece ++ stdin'.rest := hreads.rest_eq
  suffices htakes : ∃ res, stdinLine endOfFile into fuel stdin = some (res, stdin') ∧
      StdinCall.line.Takes endOfFile into piece stdin.events stdin'.events (.line res) by
    obtain ⟨res, hline, htakes⟩ := htakes
    exact ⟨res, piece, stdin', hline, hrest, hreads.errs_suffix, htakes⟩
  have hrestEvents : stdin.events.rest = stdin.rest := stdin.rest_events
  have hbefore : stdin.events.beforeFailure = stdin.beforeFailure := stdin.beforeFailure_events
  have herrs : stdin.events.errs = stdin.errs := stdin.errs_events
  obtain ⟨piece', hpiece, hcuts⟩ := readUntilLoop_cuts hread
  obtain rfl : piece = piece' := hpiece
  cases ret with
  | error e =>
    refine ⟨_, stdinLine_of_error endOfFile into hread, .inr (.inr ⟨e, rfl, ?_, ?_, ?_⟩)⟩
    · exact (failure?_of_readUntilLoop hread).2 e rfl
    · rw [hbefore]
      exact hcuts.error e rfl
    · exact (hreads.error e rfl).1
  | ok n =>
    obtain ⟨hn, hupTo⟩ := hreads.ok n rfl
    rw [Nat.zero_add] at hn
    have hupTo : piece = upTo 10 stdin.rest := hupTo
    have hcalm := hcuts.ok n rfl
    have hfailure := ((failure?_of_readUntilLoop hread).1 n rfl).symm
    -- The line is read: whether it is text decides between `String` and the encoding error.
    by_cases hvalid : Valid piece
    · obtain ⟨cs, rfl⟩ := hvalid
      by_cases hnil : encode cs = []
      · -- Nothing comes before the end of the line, so nothing comes at all.
        rw [hnil, List.length_nil] at hn
        rw [hnil, hn] at hread
        have hend : stdin.rest = [] := by
          by_contra hne
          rw [hnil] at hupTo
          exact upTo_ne_nil hne hupTo.symm
        have hcalm : OnlyInterrupted stdin.errs := by
          refine hcalm.resolve_left fun hmem => ?_
          have hrest := stdin.beforeFailure_isPrefix.subset hmem
          rw [hend] at hrest
          cases hrest
        exact ⟨_, stdinLine_of_eof endOfFile into hread,
          .inl ⟨rfl, hrestEvents.trans hend, herrs ▸ hcalm⟩⟩
      · have hpos : 0 < n := hn ▸ List.length_pos_iff.mpr hnil
        refine ⟨_, stdinLine_of_line endOfFile into hpos hread, hnil, ?_, ?_, hfailure,
          cs, rfl, rfl⟩
        · rwa [hrestEvents]
        · rwa [hbefore, herrs]
    · refine ⟨_, stdinLine_of_not_valid endOfFile into hvalid hread,
        .inr (.inl ⟨rfl, hvalid, ?_, hfailure⟩)⟩
      rwa [hrestEvents]

theorem stdinBytes_takes (stdin : BufReader) :
    ∃ res piece stdin', stdinBytes into stdin = (res, stdin') ∧
      stdin.rest = piece ++ stdin'.rest ∧ stdin'.errs <:+ stdin.errs ∧
      StdinCall.bytes.Takes endOfFile into piece stdin.events stdin'.events (.bytes res) := by
  -- One `read` of the buffered reader: a failure takes no byte, success all that it gives.
  rcases hread : stdin.read bufSize with ⟨e | bs, stdin'⟩
  · obtain ⟨hrest, herrs⟩ := BufReader.read_error hread
    refine ⟨.error (into e), [], stdin', ?_, hrest.symm, ?_, rfl, e, rfl,
      BufReader.events_read_error hread⟩
    · rw [stdinBytes, hread]
      rfl
    · rw [herrs]
      exact List.suffix_cons e _
  · obtain ⟨hrest, herrs, hlength, hnil⟩ := BufReader.read_ok hread
    refine ⟨.ok bs, bs, stdin', ?_, hrest, herrs ▸ List.suffix_rfl, rfl, hlength, ?_, ?_⟩
    · rw [stdinBytes, hread]
      rfl
    · rw [BufReader.errs_events, BufReader.errs_events, herrs]
    · rw [BufReader.rest_events]
      exact hnil (by decide)

theorem stdinReadToEnd_takes (sizes : ℕ → List UInt8 → ℕ) {fuel : ℕ} {stdin : BufReader}
    (hfuel : stepsLeft stdin < fuel) :
    ∃ res piece stdin', stdinReadToEnd into sizes fuel stdin = some (res, stdin') ∧
      stdin.rest = piece ++ stdin'.rest ∧ stdin'.errs <:+ stdin.errs ∧
      StdinCall.readToEnd.Takes endOfFile into piece stdin.events stdin'.events (.bytes res) := by
  obtain ⟨res, piece, stdin', hread, hrest, herrs, hok, herror⟩ :=
    stdin.readToEnd_reads sizes hfuel
  refine ⟨res.mapError into, piece, stdin', ?_, hrest, herrs, ?_⟩
  · rw [stdinReadToEnd, hread]
  · cases res with
    | error e =>
      obtain ⟨hfailure, hpiece⟩ := herror e rfl
      exact ⟨e, rfl, hfailure, hpiece.trans stdin.beforeFailure_events.symm⟩
    | ok bs =>
      obtain ⟨hbs, hend, hcalm⟩ := hok bs rfl
      exact ⟨hbs, stdin'.rest_events.trans hend, stdin.errs_events ▸ hcalm⟩

/-- **One call** takes the next piece. -/
theorem StdinCall.run_takes [Memchr] (sizes : ℕ → List UInt8 → ℕ) {fuel : ℕ} {stdin : BufReader}
    (hfuel : stepsLeft stdin < fuel) (call : StdinCall) :
    ∃ answer piece stdin', call.run endOfFile into sizes fuel stdin = some (answer, stdin') ∧
      stdin.rest = piece ++ stdin'.rest ∧ stdin'.errs <:+ stdin.errs ∧
      call.Takes endOfFile into piece stdin.events stdin'.events answer := by
  cases call with
  | line =>
    obtain ⟨res, piece, stdin', hline, h⟩ := stdinLine_takes endOfFile into hfuel
    exact ⟨.line res, piece, stdin', by rw [run, hline]; rfl, h⟩
  | bytes =>
    obtain ⟨res, piece, stdin', hbytes, h⟩ := stdinBytes_takes endOfFile into stdin
    exact ⟨.bytes res, piece, stdin', by rw [run, hbytes], h⟩
  | readToEnd =>
    obtain ⟨res, piece, stdin', hread, h⟩ := stdinReadToEnd_takes endOfFile into sizes hfuel
    exact ⟨.bytes res, piece, stdin', by rw [run, hread]; rfl, h⟩

/-- **Mixed reads** of standard input take one piece of it after the other, and those that succeed
give back what they take. -/
theorem stdin_calls [Memchr] (sizes : ℕ → List UInt8 → ℕ) (input : Source) :
    ∃ N, ∀ fuel ≥ N, ∀ calls : List StdinCall, ∃ answers stdin',
      runCalls endOfFile into sizes fuel (stdStdin input) calls = some (answers, stdin') ∧
        answers.length = calls.length ∧
        Pieces endOfFile into (calls.zip answers) input stdin'.events ∧
        ((∀ answer ∈ answers, answer.IsOk) →
          ∃ pieces, List.Forall₂ StdinAnswer.GivesBack answers pieces ∧
            input.rest = pieces.flatten ++ stdin'.rest) := by
  refine ⟨stepsLeft (stdStdin input) + 1, fun fuel hfuel calls => ?_⟩
  have hevents : (stdStdin input).events = input := rfl
  suffices hcalls : ∀ stdin : BufReader, stepsLeft stdin < fuel → ∃ answers stdin',
      runCalls endOfFile into sizes fuel stdin calls = some (answers, stdin') ∧
        answers.length = calls.length ∧
        Pieces endOfFile into (calls.zip answers) stdin.events stdin'.events by
    obtain ⟨answers, stdin', hrun, hlength, hpieces⟩ := hcalls _ (Nat.lt_of_succ_le hfuel)
    rw [hevents] at hpieces
    refine ⟨answers, stdin', hrun, hlength, hpieces, fun hok => ?_⟩
    have hsnd : (calls.zip answers).map Prod.snd = answers := List.map_snd_zip (by omega)
    obtain ⟨pieces, hgives, hrest'⟩ := hpieces.givesBack fun call hcall =>
      hok call.2 (hsnd ▸ List.mem_map_of_mem hcall)
    exact ⟨pieces, hsnd ▸ hgives, stdin'.rest_events ▸ hrest'⟩
  -- On the calls; each leaves no more steps than there were.
  induction calls with
  | nil => exact fun stdin _ => ⟨[], stdin, rfl, rfl, rfl⟩
  | cons call calls ih =>
    intro stdin hfuel
    obtain ⟨answer, piece, stdin₁, hcall, hpiece, herrs, htakes⟩ :=
      call.run_takes endOfFile into sizes hfuel
    have hsteps : stepsLeft stdin₁ < fuel := by
      have hlength : stdin.rest.length = piece.length + stdin₁.rest.length := by
        rw [hpiece, List.length_append]
      have hlengthErrs := herrs.length_le
      have hold : stepsLeft stdin = stdin.rest.length + stdin.errs.length := rfl
      have hnew : stepsLeft stdin₁ = stdin₁.rest.length + stdin₁.errs.length := rfl
      omega
    obtain ⟨answers, stdin', hrun, hanswers, hpieces⟩ := ih stdin₁ hsteps
    have hpiece : stdin.events.rest = piece ++ stdin₁.events.rest := by
      rw [stdin.rest_events, stdin₁.rest_events, hpiece]
    refine ⟨answer :: answers, stdin', ?_, congrArg (· + 1) hanswers,
      piece, stdin₁.events, hpiece, htakes, hpieces⟩
    rw [runCalls, hcall]
    show (runCalls endOfFile into sizes fuel stdin₁ calls).bind _ = _
    rw [hrun]
    rfl

/-- A line, a read and the rest of `hi`, a newline and, behind an interruption, `!`. -/
theorem stdin_calls_hi :
    ∃ fuel answers stdin',
      runCalls () (fun _ => ()) (fun _ _ => 31) fuel
        (stdStdin [.data 104 [105, 10], .error ⟨.interrupted, ""⟩, .data 33 []])
        [.line, .bytes, .readToEnd] = some (answers, stdin') ∧
      Pieces () (fun _ => ()) ([.line, .bytes, .readToEnd].zip answers)
        [.data 104 [105, 10], .error ⟨.interrupted, ""⟩, .data 33 []] stdin'.events := by
  obtain ⟨N, h⟩ := stdin_calls () (fun _ => ()) (fun _ _ => 31)
    [.data 104 [105, 10], .error ⟨.interrupted, ""⟩, .data 33 []]
  obtain ⟨answers, stdin', hrun, -, hpieces, -⟩ := h N le_rfl [.line, .bytes, .readToEnd]
  exact ⟨N, answers, stdin', hrun, hpieces⟩

end

end BasicCli.Stdin
