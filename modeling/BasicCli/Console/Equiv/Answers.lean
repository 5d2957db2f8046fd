import BasicCli.Console.Answers
import BasicCli.Console.Equiv.Boundary
import BasicCli.StdIo.Equiv.Refusal

/-!
# What an answer says

Whichever writes fail, each call appends a first part of its text to its stream, or to the buffer of
that stream, and all of it when it answers `Ok`; the buffer is then empty (`runStdio_delivers`).
-/

namespace BasicCli.Console

open StdIo Run

/-! ### Streams -/

/-- What the kernel has been passed of a stream. -/
def passed (fd : Fd) (raw : StdoutRaw) : List UInt8 :=
  (raw.fds.written.filter fun b => b.1 = fd).map Prod.snd

/-- What has been written to a stream, whether or not it has been passed on. -/
def given (fd : Fd) (s : Console) : List UInt8 :=
  passed fd s.inner ++ if fd = .stdout then s.buf else []

/-- **`write_all`** takes a first part of the bytes, and all of them where it succeeds. On what the
file descriptor does. -/
theorem takes_first (events : List SinkEvent) (bs : List UInt8) :
    (writeAll events bs).2.1 <+: bs ∧
      ((writeAll events bs).1 = .ok () → (writeAll events bs).2.1 = bs) := by
  induction events generalizing bs with
  | nil => cases bs <;> exact ⟨List.prefix_refl _, fun _ => rfl⟩
  | cons event events ih =>
    cases bs with
    | nil => exact ⟨List.prefix_refl _, fun _ => by rw [writeAll]⟩
    | cons b bs =>
      -- A stream that accepts no byte, or fails otherwise than by an interruption, ends the call.
      cases event with
      | accept n =>
        rw [writeAll]
        split_ifs with hn
        · exact ⟨List.nil_prefix, fun h => by cases h⟩
        · obtain ⟨hfirst, hok⟩ := ih ((b :: bs).drop n)
          constructor
          · have happend := (List.prefix_append_right_inj ((b :: bs).take n)).mpr hfirst
            rwa [List.take_append_drop] at happend
          · intro h
            show (b :: bs).take n ++ _ = b :: bs
            rw [hok h, List.take_append_drop]
      | error e =>
        rw [writeAll]
        split_ifs with hkind
        · exact ih (b :: bs)
        · exact ⟨List.nil_prefix, fun h => by cases h⟩

/-- A write to a file descriptor passes on a first part. -/
theorem fds_writeAll (fd : Fd) (bs : List UInt8) (fds : Fds) :
    ∃ res n fds', fds.writeAll fd bs = ((res, n), fds') ∧ (res = .ok () → n = bs.length) ∧
      fds'.written = fds.written ++ (bs.take n).map (fd, ·) := by
  obtain ⟨hfirst, hok⟩ := takes_first (fds.events fd) bs
  refine ⟨(writeAll (fds.events fd) bs).1, (writeAll (fds.events fd) bs).2.1.length, _, rfl, ?_, ?_⟩
  · intro h
    rw [hok h]
  · rw [← List.prefix_iff_eq_take.mp hfirst]

/-- What is passed on of a stream, behind a write to one of the two. -/
theorem passed_append (fd : Fd) {fd' : Fd} (raw raw' : StdoutRaw) {bs : List UInt8}
    (h : raw'.fds.written = raw.fds.written ++ bs.map (fd', ·)) :
    passed fd raw' = passed fd raw ++ if fd' = fd then bs else [] := by
  rw [passed, passed, h, List.filter_append, List.map_append]
  split_ifs with hfd
  · have hall : (bs.map (fd', ·)).filter (fun b => b.1 = fd) = bs.map (fd', ·) := by
      rw [List.filter_eq_self]
      simp [hfd]
    have hid : (Prod.snd ∘ fun b => (fd', b)) = (id : UInt8 → UInt8) := rfl
    rw [hall, List.map_map, hid, List.map_id]
  · have hnone : (bs.map (fd', ·)).filter (fun b => b.1 = fd) = [] := by
      rw [List.filter_eq_nil_iff]
      simp [hfd]
    rw [hnone, List.map_nil]

/-- Nothing else has been passed on standard error. -/
def StderrIs (bytes : List UInt8) (raw : StdoutRaw) : Prop := passed .stderr raw = bytes

theorem takesFirst (bytes : List UInt8) :
    TakesFirst StdoutRaw (StderrIs bytes) (passed .stdout) id := by
  intro bs raw hraw
  obtain ⟨res, n, fds, hrun, hlen, hwritten⟩ := fds_writeAll .stdout bs raw.fds
  refine ⟨res, n, ⟨fds⟩, ?_, ?_, hlen, ?_⟩
  · show ((raw.fds.writeAll .stdout bs).1, StdoutRaw.mk (raw.fds.writeAll .stdout bs).2) = _
    rw [hrun]
  · have hpassed := passed_append .stderr raw ⟨fds⟩ hwritten
    rw [if_neg (by decide), List.append_nil] at hpassed
    exact hpassed.trans hraw
  · have hpassed := passed_append .stdout raw ⟨fds⟩ hwritten
    rw [if_pos rfl] at hpassed
    rw [List.map_id]
    exact hpassed

theorem given_stdout (s : Console) : BufWriter.given (passed .stdout) id s = s.given .stdout := by
  rw [BufWriter.given, given, if_pos rfl, List.map_id]

theorem given_stderr (s : Console) : s.given .stderr = passed .stderr s.inner := by
  rw [given, if_neg (by decide), List.append_nil]

/-! ### Calls -/

/-- The buffer holds no more than it can. -/
structure Sound (s : Console) : Prop where
  pos : 0 < s.capacity
  fits : s.buf.length ≤ s.capacity

/-- `piece` has come to a stream, and nothing to the other. -/
def Adds (fd : Fd) (piece : List UInt8) (s s' : Console) : Prop :=
  ∀ fd', s'.given fd' = s.given fd' ++ if fd = fd' then piece else []

/-- From `s`, `x` writes all of the text, or it fails and has written a first part. -/
def Writes (x : WriteM Console Unit) (s : Console) (fd : Fd) (text : List UInt8) : Prop :=
  Leaves x s
    (fun _ s' => s'.Sound ∧ Adds fd text s s' ∧ (fd = .stdout → s'.buf = []))
    fun _ s' => s'.Sound ∧ ∃ piece, piece <+: text ∧ Adds fd piece s s'

theorem adds_stdout {piece : List UInt8} {s s' : Console}
    (hout : BufWriter.given (passed .stdout) id s' =
      BufWriter.given (passed .stdout) id s ++ piece)
    (herr : StderrIs (passed .stderr s.inner) s'.inner) : Adds .stdout piece s s' := by
  rw [given_stdout, given_stdout] at hout
  intro fd
  cases fd with
  | stdout => rw [if_pos rfl, hout]
  | stderr =>
    rw [if_neg (by decide), List.append_nil, given_stderr, given_stderr]
    exact herr

theorem writes_of_appends {x : WriteM Console Unit} {s : Console} {text : List UInt8}
    (h : Appends (BufWriter.given (passed .stdout) id) x s (text.map id)
      (BufWriter.Ok (StderrIs (passed .stderr s.inner)))
      (BufWriter.Flushed (StderrIs (passed .stderr s.inner)))) : Writes x s .stdout text := by
  rw [List.map_id] at h
  refine Leaves.mono h ?_ ?_
  · rintro - s' ⟨hs', hout⟩
    exact ⟨⟨hs'.pos, hs'.fits⟩, adds_stdout hout hs'.inner, fun _ => hs'.buf⟩
  · rintro e s' ⟨hs', piece, hpiece, hout⟩
    exact ⟨⟨hs'.pos, hs'.fits⟩, piece, hpiece, adds_stdout hout hs'.inner⟩

/-- Text and flush. -/
theorem stdout_writes {s : Console} (hs : s.Sound) (text : List UInt8) :
    Writes (do LineWriter.writeAll text; LineWriter.flush) s .stdout text := by
  have htakes := takesFirst (passed .stderr s.inner)
  refine writes_of_appends ?_
  have happend := Appends.bind (LineWriter.writeAll_appends htakes ⟨rfl, hs.pos, hs.fits⟩ text)
    fun s₁ hs₁ => LineWriter.flush_appends htakes hs₁
  rwa [List.append_nil] at happend

/-- A line and flush. -/
theorem stdout_line_writes {s : Console} (hs : s.Sound) (text : List UInt8) :
    Writes (do LineWriter.writeAll text; LineWriter.writeAll [10]; LineWriter.flush) s .stdout
      (text ++ [10]) := by
  have htakes := takesFirst (passed .stderr s.inner)
  refine writes_of_appends ?_
  rw [List.map_append]
  refine Appends.bind (LineWriter.writeAll_appends htakes ⟨rfl, hs.pos, hs.fits⟩ text)
    fun s₁ hs₁ => ?_
  have hnewline := Appends.bind (LineWriter.writeAll_newline_appends htakes hs₁)
    fun s₂ hs₂ => LineWriter.flush_appends htakes hs₂.toOk
  rwa [List.append_nil] at hnewline

/-- A write to `stderr`, which has no buffer. -/
theorem stderrWriteAll_writes {s : Console} (hs : s.Sound) (text : List UInt8) :
    Writes (stderrWriteAll text) s .stderr text := by
  obtain ⟨res, n, fds, hrun, hlen, hwritten⟩ := fds_writeAll .stderr text s.inner.fds
  have happly : stderrWriteAll text s = (res, { s with inner := ⟨fds⟩ }) := by
    rw [stderrWriteAll, hrun]
  have hadds : Adds .stderr (text.take n) s { s with inner := ⟨fds⟩ } := by
    intro fd
    have hpassed := passed_append fd s.inner ⟨fds⟩ hwritten
    rw [given, given, hpassed]
    cases fd with
    | stdout => simp
    | stderr => simp
  have hs' : Sound { s with inner := ⟨fds⟩ } := ⟨hs.pos, hs.fits⟩
  rcases res with e | u
  · exact leaves_of_error happly ⟨hs', text.take n, List.take_prefix n text, hadds⟩
  · rw [hlen rfl, List.take_length] at hadds
    exact leaves_of_ok happly ⟨hs', hadds, fun h => by cases h⟩

theorem Adds.trans {fd : Fd} {piece piece' : List UInt8} {s s' s'' : Console}
    (h : Adds fd piece s s') (h' : Adds fd piece' s' s'') : Adds fd (piece ++ piece') s s'' := by
  intro fd'
  rw [h' fd', h fd']
  split_ifs
  · rw [List.append_assoc]
  · simp

/-- A write to `stderr` and the flush that does nothing. -/
theorem stderr_writes {s : Console} (hs : s.Sound) (text : List UInt8) :
    Writes (do stderrWriteAll text; stderrFlush) s .stderr text :=
  leaves_bind (stderrWriteAll_writes hs text) fun _ _ h => leaves_pure h

/-- A line to `stderr`: its text, and the newline behind it. -/
theorem stderr_line_writes {s : Console} (hs : s.Sound) (text : List UInt8) :
    Writes (do stderrWriteAll text; stderrWriteAll [10]; stderrFlush) s .stderr
      (text ++ [10]) := by
  refine leaves_bind ((stderrWriteAll_writes hs text).mono (fun _ _ h => h) ?_) ?_
  · rintro e s' ⟨hs', piece, hpiece, hadds⟩
    exact ⟨hs', piece, hpiece.trans (List.prefix_append text [10]), hadds⟩
  rintro - s₁ ⟨hs₁, hadds₁, -⟩
  refine Leaves.mono (stderr_writes hs₁ [10]) ?_ ?_
  · rintro - s₂ ⟨hs₂, hadds₂, hbuf⟩
    exact ⟨hs₂, hadds₁.trans hadds₂, hbuf⟩
  · rintro e s₂ ⟨hs₂, piece, hpiece, hadds₂⟩
    exact ⟨hs₂, text ++ piece, (List.prefix_append_right_inj text).mpr hpiece,
      hadds₁.trans hadds₂⟩

/-! ### Runs -/

namespace StdioCall

/-- The stream of a call. -/
def fd : StdioCall → Fd
  | stdoutLine _ | stdoutWrite _ | stdoutWriteBytes _ => .stdout
  | stderrLine _ | stderrWrite _ | stderrWriteBytes _ => .stderr

/-- What a call is to write. -/
def text : StdioCall → List UInt8
  | stdoutLine line | stderrLine line => line.bytes ++ [10]
  | stdoutWrite text | stderrWrite text => text.bytes
  | stdoutWriteBytes bytes | stderrWriteBytes bytes => bytes

end StdioCall

/-- What comes of a call: its answer, and what it has written. -/
structure Outcome (E : Type) where
  call : StdioCall
  answer : Except E Unit
  piece : List UInt8
  isPrefix : piece <+: call.text
  whole : answer = .ok () → piece = call.text

variable {E : Type} (into : IoError → E)

/-- What has come to a stream. -/
def Outcome.on (fd : Fd) (o : Outcome E) : List UInt8 := if o.call.fd = fd then o.piece else []

/-- What a call leaves behind, with the outcome `o`. -/
structure Outcome.Leads (o : Outcome E) (s s' : Console) : Prop where
  sound : s'.Sound
  given : ∀ fd, s'.given fd = s.given fd ++ o.on fd
  buf : o.call.fd = .stdout → o.answer = .ok () → s'.buf = []

/-- A call leads to one of its outcomes. -/
theorem answer_leads {x : WriteM Console Unit} {s : Console} {call : StdioCall}
    (h : Writes x s call.fd call.text) :
    ∃ o : Outcome E, o.call = call ∧ o.answer = (answer into x s).1 ∧
      o.Leads s (answer into x s).2 := by
  have hanswer : answer into x s = ((x s).1.mapError into, (x s).2) := rfl
  rw [hanswer]
  rcases hx : x s with ⟨e | u, s'⟩
  · obtain ⟨hs', piece, hpiece, hadds⟩ := h.2 e s' hx
    exact ⟨⟨call, .error (into e), piece, hpiece, nofun⟩, rfl, rfl, hs', hadds, nofun⟩
  · obtain ⟨hs', hadds, hbuf⟩ := h.1 u s' hx
    exact ⟨⟨call, .ok (), call.text, List.prefix_refl _, fun _ => rfl⟩, rfl, rfl, hs', hadds,
      fun hfd _ => hbuf hfd⟩

/-- **One call**: one case for each of the six functions. -/
theorem StdioCall.run_leads {s : Console} (hs : s.Sound) (call : StdioCall) :
    ∃ o : Outcome E, o.call = call ∧ o.answer = (call.run into s).1 ∧
      o.Leads s (call.run into s).2 := by
  cases call with
  | stdoutLine line => exact answer_leads into (stdout_line_writes hs line.bytes)
  | stdoutWrite text => exact answer_leads into (stdout_writes hs text.bytes)
  | stdoutWriteBytes bytes => exact answer_leads into (stdout_writes hs bytes)
  | stderrLine line => exact answer_leads into (stderr_line_writes hs line.bytes)
  | stderrWrite text => exact answer_leads into (stderr_writes hs text.bytes)
  | stderrWriteBytes bytes => exact answer_leads into (stderr_writes hs bytes)

/-- **A run of calls**, from wherever it starts: what each has passed on is appended to what there
was. On the calls. -/
theorem runStdio_from {s : Console} (hs : s.Sound) (calls : List StdioCall) :
    ∃ outcomes : List (Outcome E), outcomes.map Outcome.call = calls ∧
      outcomes.map Outcome.answer = (runStdio into calls s).1 ∧
      (runStdio into calls s).2.Sound ∧
      (∀ fd, (runStdio into calls s).2.given fd = s.given fd ++ outcomes.flatMap (Outcome.on fd)) ∧
      ∀ o ∈ outcomes.getLast?, o.call.fd = .stdout → o.answer = .ok () →
        (runStdio into calls s).2.buf = [] := by
  induction calls generalizing s with
  | nil => exact ⟨[], rfl, rfl, hs, fun fd => (List.append_nil _).symm, nofun⟩
  | cons call calls ih =>
    obtain ⟨o, rfl, hanswer, hlead⟩ := call.run_leads into hs
    obtain ⟨outcomes, hcalls, hanswers, hsound, hgiven, hlast⟩ := ih hlead.sound
    have hrun : runStdio into (o.call :: calls) s =
        ((o.call.run into s).1 :: (runStdio into calls (o.call.run into s).2).1,
          (runStdio into calls (o.call.run into s).2).2) := rfl
    rw [hrun]
    refine ⟨o :: outcomes, ?_, ?_, hsound, fun fd => ?_, ?_⟩
    · rw [List.map_cons, hcalls]
    · rw [List.map_cons, hanswer, hanswers]
    · rw [hgiven, hlead.given, List.flatMap_cons, List.append_assoc]
    · -- The last outcome is this one exactly when no call follows.
      cases outcomes with
      | nil =>
        subst hcalls
        rintro _ ⟨⟩ hfd hok
        exact hlead.buf hfd hok
      | cons o' outcomes =>
        rw [List.getLast?_cons_cons]
        exact hlast

end BasicCli.Console
