import BasicCli.Console.Basic
import BasicCli.StdIo.Equiv.Writer

/-!
# What has been written between two calls

As long as no write fails, the kernel has been passed all messages of all calls so far, in the order
of the calls, and nothing is left in the buffer of the standard output (`Console.runCalls_written`).
So it does not matter how the process ends.
-/

namespace BasicCli

open StdIo

/-! ### Writes that do not fail -/

/-- The sink takes something, or the write is to be made again. -/
def StdIo.SinkEvent.Takes : SinkEvent → Prop
  | accept n => n ≠ 0
  | error e => e.kind = .interrupted

/-- A file descriptor that takes something each time takes all. -/
theorem StdIo.writeAll_of_takes {events : List SinkEvent} (h : ∀ e ∈ events, e.Takes)
    (bs : List UInt8) :
    ∃ events', writeAll events bs = (.ok (), bs, events') ∧ ∀ e ∈ events', e.Takes := by
  induction events generalizing bs with
  | nil =>
    refine ⟨[], ?_, h⟩
    cases bs with
    | nil => rfl
    | cons b bs => rfl
  | cons event events ih =>
    have hrest : ∀ e ∈ events, e.Takes := fun e he => h e (List.mem_cons_of_mem _ he)
    have hevent := h event List.mem_cons_self
    rcases bs with _ | ⟨b, bs⟩
    · exact ⟨event :: events, by rw [writeAll], h⟩
    -- An event that takes something shortens the rest; an interruption is tried again.
    rcases event with n | e
    · obtain ⟨events', hrun, htakes⟩ := ih hrest ((b :: bs).drop n)
      refine ⟨events', ?_, htakes⟩
      rw [writeAll, if_neg hevent, hrun]
      simp only [List.take_append_drop]
    · have hkind : e.kind = .interrupted := hevent
      rw [writeAll, if_pos hkind]
      exact ih hrest (b :: bs)

/-- No write fails from here on. -/
def Fds.NoWriteError (fds : Fds) : Prop := ∀ fd, ∀ e ∈ fds.events fd, e.Takes

/-- Without errors all bytes are written, to the one descriptor. -/
theorem Fds.writeAll_of_noWriteError {fds : Fds} (h : fds.NoWriteError) (fd : Fd)
    (bs : List UInt8) :
    ∃ fds', fds.writeAll fd bs = ((.ok (), bs.length), fds') ∧ fds'.NoWriteError ∧
      fds'.written = fds.written ++ bs.map (fd, ·) := by
  obtain ⟨events', hrun, htakes⟩ := writeAll_of_takes (h fd) bs
  refine ⟨⟨Function.update fds.events fd events', fds.written ++ bs.map (fd, ·)⟩, ?_, ?_, rfl⟩
  · rw [Fds.writeAll, hrun]
  · intro fd'
    show ∀ e ∈ Function.update fds.events fd events' fd', e.Takes
    by_cases hfd : fd' = fd
    · subst hfd
      rw [Function.update_self]
      exact htakes
    · rw [Function.update_of_ne hfd]
      exact h fd'

/-! ### Pieces -/

namespace Console

/-- No write to come fails. -/
def Calm (raw : StdoutRaw) : Prop := raw.fds.NoWriteError

/-- What has been written to the two streams, whether or not it has been passed on. -/
def output (s : Console) : List (Fd × UInt8) :=
  BufWriter.given (fun raw : StdoutRaw => raw.fds.written) (Fd.stdout, ·) s

/-- The raw `stdout` is such a writer. -/
theorem steady : Steady StdoutRaw Calm (fun raw => raw.fds.written) (Fd.stdout, ·) := by
  intro bs raw hraw
  obtain ⟨fds, hrun, hcalm, hwritten⟩ := Fds.writeAll_of_noWriteError hraw .stdout bs
  refine ⟨⟨fds⟩, ?_, hcalm, hwritten⟩
  show ((raw.fds.writeAll .stdout bs).1, StdoutRaw.mk (raw.fds.writeAll .stdout bs).2) = _
  rw [hrun]

/-- Between two calls: no write to come fails, and the buffer is empty. -/
abbrev Boundary (s : Console) : Prop := BufWriter.Flushed Calm s

/-- At a boundary nothing is held back. -/
theorem Boundary.written_eq {s : Console} (h : s.Boundary) : s.written = s.output := by
  rw [output, BufWriter.given, h.buf, List.map_nil, List.append_nil]
  rfl

theorem boundary_init {events : Fd → List SinkEvent} (h : ∀ fd, ∀ e ∈ events fd, e.Takes) :
    (init events).Boundary :=
  ⟨⟨h, Nat.succ_pos 1023, Nat.zero_le _⟩, rfl⟩

/-- Standard error goes past the buffer, so it comes in order only while that is empty. -/
theorem stderrWriteAll_emits {s : Console} (hs : s.Boundary) (bs : List UInt8) :
    Emits output (stderrWriteAll bs) s (bs.map (Fd.stderr, ·)) Boundary := by
  obtain ⟨fds, hrun, hcalm, hwritten⟩ := Fds.writeAll_of_noWriteError hs.inner .stderr bs
  refine ⟨{ s with inner := ⟨fds⟩ }, ?_, ⟨⟨hcalm, hs.pos, hs.fits⟩, hs.buf⟩, ?_⟩
  · rw [stderrWriteAll, hrun]
  · rw [output, output, BufWriter.given, BufWriter.given, hs.buf, hwritten, List.map_nil,
      List.append_nil, List.append_nil]

theorem stderr_writeFmt_emits {s : Console} (hs : s.Boundary) (pieces : List (List UInt8)) :
    Emits output (writeFmt stderrWriteAll pieces) s
      (pieces.flatMap fun piece => piece.map (Fd.stderr, ·)) Boundary :=
  Emits.forM (fun piece _ _ hs' => stderrWriteAll_emits hs' piece) hs

/-! ### Calls -/

/-- What a call leaves behind when none of its writes fails. -/
def Meets (x : StateM Console Unit) (s : Console) (bs : List (Fd × UInt8)) : Prop :=
  ∃ s', x s = ((), s') ∧ s'.Boundary ∧ s'.output = s.output ++ bs

end Console

namespace ConsoleCall

/-- The stream and the bytes that a call is to write. -/
def output : ConsoleCall → List (Fd × UInt8)
  | stdoutLine message => (message.bytes ++ [10]).map (Fd.stdout, ·)
  | stdoutWrite message => message.bytes.map (Fd.stdout, ·)
  | stderrLine message => (message.bytes ++ [10]).map (Fd.stderr, ·)
  | stderrWrite message => message.bytes.map (Fd.stderr, ·)

end ConsoleCall

open Console

/-- What is ignored of a write is its answer only. -/
theorem ignore_spec {x : WriteM Console Unit} {s : Console} {bs : List (Fd × UInt8)}
    {post : Console → Prop} (h : Emits Console.output x s bs post) :
    ∃ s', ignore x s = ((), s') ∧ post s' ∧ s'.output = s.output ++ bs := by
  obtain ⟨s', hx, hpost, hout⟩ := h
  refine ⟨s', ?_, hpost, hout⟩
  show ((), (x s).2) = _
  rw [hx]

/-- **`hosted_stdout_line`**: the newline flushes the buffer. -/
theorem hostedStdoutLine_meets {s : Console} (hs : s.Boundary) (message : RocStr) :
    Meets (hostedStdoutLine message) s ((message.bytes ++ [10]).map (Fd.stdout, ·)) := by
  have hpieces : Emits Console.output (writeFmt LineWriter.writeAll [message.bytes, [10]]) s
      (message.bytes.map (Fd.stdout, ·) ++ ([(Fd.stdout, 10)] ++ [])) Boundary := by
    refine Emits.bind (LineWriter.writeAll_emits steady hs.toOk message.bytes) fun s₁ hs₁ => ?_
    exact Emits.bind (LineWriter.writeAll_newline_emits steady hs₁) fun s₂ hs₂ => Emits.pure hs₂
  rw [List.map_append]
  exact ignore_spec hpieces

/-- **`hosted_stdout_write`** flushes what it has written. -/
theorem hostedStdoutWrite_meets {s : Console} (hs : s.Boundary) (message : RocStr) :
    Meets (hostedStdoutWrite message) s (message.bytes.map (Fd.stdout, ·)) := by
  have hpiece : Emits Console.output (writeFmt LineWriter.writeAll [message.bytes]) s
      (message.bytes.map (Fd.stdout, ·) ++ []) (BufWriter.Ok Calm) :=
    Emits.bind (LineWriter.writeAll_emits steady hs.toOk message.bytes) fun _ hs₁ => Emits.pure hs₁
  -- Behind the last newline something may be left, which the flush passes on.
  obtain ⟨s₁, hrun₁, hs₁, hout₁⟩ := ignore_spec hpiece
  obtain ⟨s₂, hrun₂, hs₂, hout₂⟩ := ignore_spec (LineWriter.flush_emits steady hs₁)
  refine ⟨s₂, ?_, hs₂, ?_⟩
  · show ignore LineWriter.flush (ignore (writeFmt LineWriter.writeAll [message.bytes]) s).2 = _
    rw [hrun₁]
    exact hrun₂
  · rw [hout₂, hout₁, List.append_nil, List.append_nil]

/-- **`hosted_stderr_line`** writes at once. -/
theorem hostedStderrLine_meets {s : Console} (hs : s.Boundary) (message : RocStr) :
    Meets (hostedStderrLine message) s ((message.bytes ++ [10]).map (Fd.stderr, ·)) := by
  have hpieces := ignore_spec (stderr_writeFmt_emits hs [message.bytes, [10]])
  rw [List.map_append]
  exact hpieces

/-- **`hosted_stderr_write`** writes at once. -/
theorem hostedStderrWrite_meets {s : Console} (hs : s.Boundary) (message : RocStr) :
    Meets (hostedStderrWrite message) s (message.bytes.map (Fd.stderr, ·)) := by
  have hpiece := ignore_spec (stderr_writeFmt_emits hs [message.bytes])
  rw [List.flatMap_singleton] at hpiece
  exact hpiece

/-- The message of a crash is written at once. -/
theorem rocCrashedFn_meets {s : Console} (hs : s.Boundary) (message : RocStr) :
    Meets (rocCrashedFn message) s
      ((crashedText ++ message.bytes ++ [10]).map (Fd.stderr, ·)) := by
  have hpieces := ignore_spec (stderr_writeFmt_emits hs [crashedText, message.bytes, [10]])
  rw [List.map_append, List.map_append, List.append_assoc]
  exact hpieces

/-! ### Runs -/

/-- **A call leaves nothing behind.** -/
theorem ConsoleCall.run_meets {s : Console} (hs : s.Boundary) (call : ConsoleCall) :
    Meets call.run s call.output := by
  cases call with
  | stdoutLine message => exact hostedStdoutLine_meets hs message
  | stdoutWrite message => exact hostedStdoutWrite_meets hs message
  | stderrLine message => exact hostedStderrLine_meets hs message
  | stderrWrite message => exact hostedStderrWrite_meets hs message

/-- **A run of calls** stands at a boundary after each. On the calls. -/
theorem Console.runCalls_meets {s : Console} (hs : s.Boundary) (calls : List ConsoleCall) :
    Meets (runCalls calls) s (calls.flatMap ConsoleCall.output) := by
  induction calls generalizing s with
  | nil => exact ⟨s, rfl, hs, (List.append_nil _).symm⟩
  | cons call calls ih =>
    obtain ⟨s₁, hrun₁, hs₁, hout₁⟩ := call.run_meets hs
    obtain ⟨s₂, hrun₂, hs₂, hout₂⟩ := ih hs₁
    refine ⟨s₂, ?_, hs₂, ?_⟩
    · show runCalls calls (call.run s).2 = _
      rw [hrun₁]
      exact hrun₂
    · rw [hout₂, hout₁, List.flatMap_cons, List.append_assoc]

/-- **Nothing is lost.**  When no write fails, then after any calls the kernel has been passed their
messages in the order of the calls, each line with its newline, and the buffer is empty; and a crash
then adds its own text on standard error and nothing else. -/
theorem Console.runCalls_written {events : Fd → List SinkEvent}
    (h : ∀ fd, ∀ e ∈ events fd, e.Takes) (calls : List ConsoleCall) :
    ∃ s, runCalls calls (init events) = ((), s) ∧
      s.written = calls.flatMap ConsoleCall.output ∧ s.buf = [] ∧
      ∀ message, (rocCrashedFn message s).2.written = s.written ++
        (crashedText ++ message.bytes ++ [10]).map (Fd.stderr, ·) := by
  obtain ⟨s, hrun, hs, hout⟩ := runCalls_meets (boundary_init h) calls
  refine ⟨s, hrun, ?_, hs.buf, fun message => ?_⟩
  · rw [hs.written_eq, hout]
    rfl
  · obtain ⟨s', hcrash, hs', hout'⟩ := rocCrashedFn_meets hs message
    rw [hcrash, hs'.written_eq, hout', hs.written_eq]

/-- Short writes and an interrupted one, between which the streams take turns. -/
theorem Console.runCalls_written_turns :
    ∃ s, runCalls [.stdoutWrite ⟨[97, 10, 98]⟩, .stderrLine ⟨[]⟩, .stdoutLine ⟨[99]⟩]
        (init fun _ => [.accept 1, .error ⟨.interrupted, ""⟩]) = ((), s) ∧
      s.written = [(.stdout, 97), (.stdout, 10), (.stdout, 98), (.stderr, 10), (.stdout, 99),
        (.stdout, 10)] ∧ s.buf = [] ∧
      ∀ message, (rocCrashedFn message s).2.written = s.written ++
        (crashedText ++ message.bytes ++ [10]).map (Fd.stderr, ·) := by
  refine Console.runCalls_written ?_ _
  rintro fd e he
  simp only [List.mem_cons, List.not_mem_nil, or_false] at he
  rcases he with rfl | rfl
  · exact Nat.one_ne_zero
  · rfl

end BasicCli
