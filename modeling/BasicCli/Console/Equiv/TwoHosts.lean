import BasicCli.Console.Equiv.Answers

/-!
# The two hosts

The functions of `src/lib.rs` ignore errors, those of `crates/roc_stdio` answer with them.  They
leave the same behind, byte for byte, as long as no `stdout_write` fails, whatever else does
(`runCalls_eq_runStdio`); and they too write first parts of their messages only, in order
(`runCalls_delivers`).
-/

namespace BasicCli.Console

open StdIo Run

/-! ### Sequences of writes -/

theorem bind_of_ok {x y : WriteM Console Unit} {s s' : Console} (h : x s = (.ok (), s')) :
    (x >>= fun _ => y) s = y s' := by
  show (ExceptT.bindCont (fun _ => y) (x s).1 : StateM Console _) (x s).2 = _
  rw [h]
  rfl

theorem bind_of_error {x y : WriteM Console Unit} {s s' : Console} {e : IoError}
    (h : x s = (.error e, s')) : (x >>= fun _ => y) s = (.error e, s') := by
  show (ExceptT.bindCont (fun _ => y) (x s).1 : StateM Console _) (x s).2 = _
  rw [h]
  rfl

theorem writeFmt_one (f : List UInt8 → WriteM Console Unit) (bs : List UInt8) (s : Console) :
    writeFmt f [bs] s = f bs s := by
  have hrun : writeFmt f [bs] = f bs >>= fun _ => pure () := rfl
  rw [hrun]
  rcases hx : f bs s with ⟨e | u, s'⟩
  · exact bind_of_error hx
  · exact bind_of_ok hx

/-- The pieces of a text are written one after the other. -/
theorem writeFmt_cons (f : List UInt8 → WriteM Console Unit) (bs : List UInt8)
    (pieces : List (List UInt8)) :
    writeFmt f (bs :: pieces) = f bs >>= fun _ => writeFmt f pieces := rfl

/-- A flush of an empty buffer does nothing. -/
theorem flush_of_nil {s : Console} (hs : s.buf = []) : LineWriter.flush s = (.ok (), s) := by
  have hwrite : Write.writeAll [] s.inner = ((.ok (), 0), s.inner) := by
    have hnone : writeAll (s.inner.fds.events .stdout) [] =
        (.ok (), [], s.inner.fds.events .stdout) := by rw [writeAll]
    show ((s.inner.fds.writeAll .stdout []).1, StdoutRaw.mk (s.inner.fds.writeAll .stdout []).2) = _
    rw [Fds.writeAll, hnone]
    simp
  obtain ⟨capacity, buf, inner⟩ := s
  subst hs
  show BufWriter.flushBuf _ = _
  rw [BufWriter.flushBuf, hwrite]
  rfl

/-- A write to `stdout` that succeeds leaves a sound state. -/
theorem lineWriter_sound {s s' : Console} (hs : s.Sound) {text : List UInt8}
    (h : LineWriter.writeAll text s = (.ok (), s')) : s'.Sound := by
  have happend := LineWriter.writeAll_appends (takesFirst (passed .stderr s.inner))
    (w := s) ⟨rfl, hs.pos, hs.fits⟩ text
  obtain ⟨hok, -⟩ := happend.1 () s' h
  exact ⟨hok.pos, hok.fits⟩

/-- A newline that is written leaves nothing to be flushed. -/
theorem newline_flush {s : Console} (hs : s.Sound) :
    (LineWriter.writeAll [10] >>= fun _ => LineWriter.flush : WriteM Console Unit) s =
      LineWriter.writeAll [10] s := by
  have happend := LineWriter.writeAll_newline_appends (takesFirst (passed .stderr s.inner))
    (w := s) ⟨rfl, hs.pos, hs.fits⟩
  rcases hx : LineWriter.writeAll [10] s with ⟨e | u, s'⟩
  · exact bind_of_error hx
  · obtain ⟨hflushed, -⟩ := happend.1 u s' hx
    exact (bind_of_ok hx).trans (flush_of_nil hflushed.buf)

end BasicCli.Console

namespace BasicCli

open StdIo Console Run

/-! ### The same calls -/

/-- The call of the other host. -/
def ConsoleCall.toStdio : ConsoleCall → StdioCall
  | stdoutLine message => .stdoutLine message
  | stdoutWrite message => .stdoutWrite message
  | stderrLine message => .stderrLine message
  | stderrWrite message => .stderrWrite message

/-- The call writes on the standard output without a newline of its own. -/
def ConsoleCall.IsStdoutWrite : ConsoleCall → Prop
  | stdoutWrite _ => True
  | _ => False

namespace Console

variable {E : Type} (into : IoError → E) {s : Console}

/-- **The two lines to `stdout`** leave the same: where the first piece is refused, so is the
second, without a trace. -/
theorem hostedStdoutLine_eq (hs : s.Sound) (message : RocStr) :
    (hostedStdoutLine message s).2 = (stdoutLine into message s).2 := by
  have hhosted : (hostedStdoutLine message s).2 =
      (writeFmt LineWriter.writeAll [message.bytes, [10]] s).2 := rfl
  have hstdio : (stdoutLine into message s).2 =
      ((LineWriter.writeAll message.bytes >>= fun _ =>
        LineWriter.writeAll [10] >>= fun _ => LineWriter.flush : WriteM Console Unit) s).2 := rfl
  rw [hhosted, hstdio, writeFmt_cons]
  rcases hx : LineWriter.writeAll message.bytes s with ⟨e | u, s₁⟩
  · rw [bind_of_error hx, bind_of_error hx]
  · rw [bind_of_ok hx, bind_of_ok hx, writeFmt_one, newline_flush (lineWriter_sound hs hx)]

/-- The flush of `hosted_stdout_write` comes after an error too. -/
theorem hostedStdoutWrite_eq {message : RocStr} (h : (stdoutWrite into message s).1 = .ok ()) :
    (hostedStdoutWrite message s).2 = (stdoutWrite into message s).2 := by
  have hhosted : (hostedStdoutWrite message s).2 =
      (LineWriter.flush (writeFmt LineWriter.writeAll [message.bytes] s).2).2 := rfl
  have hstdio : stdoutWrite into message s =
      (((LineWriter.writeAll message.bytes >>= fun _ => LineWriter.flush :
          WriteM Console Unit) s).1.mapError into,
        ((LineWriter.writeAll message.bytes >>= fun _ => LineWriter.flush :
          WriteM Console Unit) s).2) := rfl
  rw [hstdio] at h ⊢
  rw [hhosted, writeFmt_one]
  rcases hx : LineWriter.writeAll message.bytes s with ⟨e | u, s₁⟩
  · rw [bind_of_error hx] at h
    cases h
  · rw [bind_of_ok hx]

theorem hostedStderrLine_eq (message : RocStr) :
    (hostedStderrLine message s).2 = (stderrLine into message s).2 := rfl

/-- The two writes to `stderr` leave the same. -/
theorem hostedStderrWrite_eq (message : RocStr) :
    (hostedStderrWrite message s).2 = (stderrWrite into message s).2 := by
  have hhosted : (hostedStderrWrite message s).2 =
      (writeFmt stderrWriteAll [message.bytes] s).2 := rfl
  rw [hhosted]
  rfl

/-- **One call of each host** leaves the same. -/
theorem run_toStdio (hs : s.Sound) {call : ConsoleCall}
    (h : call.IsStdoutWrite → (call.toStdio.run into s).1 = .ok ()) :
    (call.run s).2 = (call.toStdio.run into s).2 := by
  cases call with
  | stdoutLine message => exact hostedStdoutLine_eq into hs message
  | stdoutWrite message => exact hostedStdoutWrite_eq into (h trivial)
  | stderrLine message => exact hostedStderrLine_eq into message
  | stderrWrite message => exact hostedStderrWrite_eq into message

/-- **The two hosts leave the same behind** as long as no `stdout_write` fails. -/
theorem runCalls_eq_runStdio (hs : s.Sound) (calls : List ConsoleCall)
    (h : ∀ p ∈ calls.zip (runStdio into (calls.map ConsoleCall.toStdio) s).1,
      p.1.IsStdoutWrite → p.2 = .ok ()) :
    (runCalls calls s).2 = (runStdio into (calls.map ConsoleCall.toStdio) s).2 := by
  induction calls generalizing s with
  | nil => rfl
  | cons call calls ih =>
    have hhosted : (runCalls (call :: calls) s).2 = (runCalls calls (call.run s).2).2 := rfl
    have hstdio : runStdio into ((call :: calls).map ConsoleCall.toStdio) s =
        ((call.toStdio.run into s).1 ::
          (runStdio into (calls.map ConsoleCall.toStdio) (call.toStdio.run into s).2).1,
          (runStdio into (calls.map ConsoleCall.toStdio) (call.toStdio.run into s).2).2) := rfl
    rw [hstdio, List.zip_cons_cons, List.forall_mem_cons] at h
    obtain ⟨o, -, -, hlead⟩ := call.toStdio.run_leads into hs
    rw [hhosted, hstdio, run_toStdio into hs h.1]
    exact ih hlead.sound h.2

/-- A text and two lines, on streams that refuse the second write. -/
theorem runCalls_eq_runStdio_refused :
    (runCalls [.stdoutWrite ⟨[97]⟩, .stdoutLine ⟨[98]⟩, .stderrLine ⟨[99]⟩]
      (init fun _ => [.accept 1, .error ⟨.brokenPipe, ""⟩])).2 =
    (runStdio id ([.stdoutWrite ⟨[97]⟩, .stdoutLine ⟨[98]⟩, .stderrLine ⟨[99]⟩].map
      ConsoleCall.toStdio) (init fun _ => [.accept 1, .error ⟨.brokenPipe, ""⟩])).2 := by
  refine runCalls_eq_runStdio id ⟨Nat.succ_pos 1023, Nat.zero_le _⟩ _ ?_
  intro p hp hwrite
  have hanswers : (runStdio id ([.stdoutWrite ⟨[97]⟩, .stdoutLine ⟨[98]⟩, .stderrLine ⟨[99]⟩].map
      ConsoleCall.toStdio) (init fun _ => [.accept 1, .error ⟨.brokenPipe, ""⟩])).1 =
      [.ok (), .error ⟨.brokenPipe, ""⟩, .error ⟨.brokenPipe, ""⟩] := by
    decide
  rw [hanswers] at hp
  simp only [List.zip_cons_cons, List.zip_nil_right, List.mem_cons, List.not_mem_nil,
    or_false] at hp
  rcases hp with rfl | rfl | rfl
  · rfl
  · exact hwrite.elim
  · exact hwrite.elim

/-! ### First parts -/

theorem adds_of_appends {x : WriteM Console Unit} (text : List UInt8) {post : Console → Prop}
    (hpost : ∀ s', post s' → BufWriter.Ok (StderrIs (passed .stderr s.inner)) s')
    (h : Appends (BufWriter.given (passed .stdout) id) x s (text.map id)
      (BufWriter.Ok (StderrIs (passed .stderr s.inner))) post) :
    ∃ piece, piece <+: text ∧ (x s).2.Sound ∧ Adds .stdout piece s (x s).2 := by
  rw [List.map_id] at h
  rcases hx : x s with ⟨e | u, s'⟩
  · obtain ⟨hs', piece, hpiece, hout⟩ := h.2 e s' hx
    exact ⟨piece, hpiece, ⟨hs'.pos, hs'.fits⟩, adds_stdout hout hs'.inner⟩
  · obtain ⟨hmid, hout⟩ := h.1 u s' hx
    have hs' := hpost s' hmid
    exact ⟨text, List.prefix_refl _, ⟨hs'.pos, hs'.fits⟩, adds_stdout hout hs'.inner⟩

/-- Whatever fails, `hosted_stdout_write` writes a first part. -/
theorem hostedStdoutWrite_adds (hs : s.Sound) (message : RocStr) :
    ∃ piece, piece <+: message.bytes ∧ (hostedStdoutWrite message s).2.Sound ∧
      Adds .stdout piece s (hostedStdoutWrite message s).2 := by
  have hhosted : (hostedStdoutWrite message s).2 =
      (LineWriter.flush (writeFmt LineWriter.writeAll [message.bytes] s).2).2 := rfl
  have htakes (s : Console) := takesFirst (passed .stderr s.inner)
  rw [hhosted, writeFmt_one]
  obtain ⟨piece, hpiece, hs₁, hadds₁⟩ := adds_of_appends message.bytes (fun _ h => h)
    (LineWriter.writeAll_appends (htakes s) ⟨rfl, hs.pos, hs.fits⟩ message.bytes)
  obtain ⟨rest, hrest, hs₂, hadds₂⟩ := adds_of_appends [] (fun _ h => h.toOk)
    (LineWriter.flush_appends (htakes _) ⟨rfl, hs₁.pos, hs₁.fits⟩)
  rw [List.prefix_nil.mp hrest] at hadds₂
  refine ⟨piece, hpiece, hs₂, ?_⟩
  rw [← List.append_nil piece]
  exact hadds₁.trans hadds₂

/-- A call adds a first part of its text to its stream. -/
theorem run_adds (hs : s.Sound) (call : ConsoleCall) :
    ∃ piece, piece <+: call.toStdio.text ∧ (call.run s).2.Sound ∧
      Adds call.toStdio.fd piece s (call.run s).2 := by
  have hstdio (h : ¬ call.IsStdoutWrite) :
      ∃ piece, piece <+: call.toStdio.text ∧ (call.run s).2.Sound ∧
        Adds call.toStdio.fd piece s (call.run s).2 := by
    obtain ⟨o, hcall, -, hlead⟩ := call.toStdio.run_leads id hs
    rw [run_toStdio id hs fun hwrite => absurd hwrite h]
    refine ⟨o.piece, ?_, hlead.sound, fun fd => ?_⟩
    · rw [← hcall]
      exact o.isPrefix
    · rw [hlead.given, Outcome.on, hcall]
  cases call with
  | stdoutLine message => exact hstdio id
  | stdoutWrite message => exact hostedStdoutWrite_adds hs message
  | stderrLine message => exact hstdio id
  | stderrWrite message => exact hstdio id

/-- **A run of calls** adds a first part of each text. On the calls. -/
theorem runCalls_from (hs : s.Sound) (calls : List ConsoleCall) :
    ∃ pieces, List.Forall₂ (fun call piece => piece <+: call.toStdio.text) calls pieces ∧
      (runCalls calls s).2.Sound ∧
      ∀ fd, (runCalls calls s).2.given fd = s.given fd ++
        (calls.zip pieces).flatMap fun p => if p.1.toStdio.fd = fd then p.2 else [] := by
  induction calls generalizing s with
  | nil => exact ⟨[], .nil, hs, fun fd => (List.append_nil _).symm⟩
  | cons call calls ih =>
    obtain ⟨piece, hpiece, hs₁, hadds⟩ := run_adds hs call
    obtain ⟨pieces, hpieces, hs₂, hgiven⟩ := ih hs₁
    have hrun : (runCalls (call :: calls) s).2 = (runCalls calls (call.run s).2).2 := rfl
    refine ⟨piece :: pieces, .cons hpiece hpieces, hs₂, fun fd => ?_⟩
    rw [hrun, hgiven, hadds fd, List.zip_cons_cons, List.flatMap_cons, List.append_assoc]

/-- **Each message comes once and in order, as far as it comes**, whichever writes fail. -/
theorem runCalls_delivers (events : Fd → List SinkEvent) (calls : List ConsoleCall) :
    ∃ pieces, List.Forall₂ (fun call piece => piece <+: call.toStdio.text) calls pieces ∧
      (runCalls calls (init events)).2.Sound ∧
      ∀ fd, (runCalls calls (init events)).2.given fd =
        (calls.zip pieces).flatMap fun p => if p.1.toStdio.fd = fd then p.2 else [] := by
  have hempty (fd : Fd) : (init events).given fd = [] := by cases fd <;> rfl
  obtain ⟨pieces, hpieces, hsound, hgiven⟩ :=
    runCalls_from (s := init events) ⟨Nat.succ_pos 1023, Nat.zero_le _⟩ calls
  refine ⟨pieces, hpieces, hsound, fun fd => ?_⟩
  rw [hgiven, hempty, List.nil_append]

end Console

end BasicCli
