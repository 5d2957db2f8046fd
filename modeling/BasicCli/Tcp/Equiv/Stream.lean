import BasicCli.File.Equiv.ReadUntil
import BasicCli.Tcp.Basic

/-!
# What a program gets from a TCP stream

However the calls on a stream are mixed and however what the peer sends is cut and interrupted, the
bytes handed out are the peer's stream from its start on (`tcp_calls`): `TcpCall.Meets` says what a
single call answers by what is to come and what it leaves, `TcpCall.run_meets` that it does, and
`runCalls_spec` adds this up over a run.
-/

namespace BasicCli

open StdIo

/-- The bytes that a call hands out. -/
def TcpAnswer.bytes : TcpAnswer → List UInt8
  | read (.ok bs) => bs
  | _ => []

/-- The bytes that some calls hand out. -/
def delivered (answers : List TcpAnswer) : List UInt8 := answers.flatMap TcpAnswer.bytes

/-- The answer of `tcp_read_exactly` to a stream that is too short. -/
def TcpAnswer.unexpectedEof : TcpAnswer := .read (.error (.fromStr unexpectedEofError))

namespace TcpStream

/-- What is left of the peer's stream. -/
def rest (stream : TcpStream) : List UInt8 := stream.reader.rest

/-- The failed reads to come. -/
def errs (stream : TcpStream) : List IoError := stream.reader.errs

/-- What is to come, in its order: bytes and failed reads. -/
def events (stream : TcpStream) : Source := stream.reader.events

end TcpStream

/-- What a call on `stream` must answer, and what it may leave.  It is an error only where the next
event is a read that is interrupted, which is used up, and where the stream is too short for
`tcp_read_exactly`. -/
def TcpCall.Meets (stream stream' : TcpStream) : TcpCall → TcpAnswer → Prop
  | readUpTo n, .read (.ok bs) =>
    stream.rest = bs ++ stream'.rest ∧ stream'.errs = stream.errs ∧ bs.length ≤ n.toNat ∧
      (bs = [] → n = 0 ∨ stream.rest = [])
  | readUpTo _, .read (.error res) =>
    ∃ e, e.kind = .interrupted ∧ stream.events = .error e :: stream'.events ∧
      res = .fromStr "ErrorKind::Interrupted"
  | readExactly n, .read res =>
    (res = .error (.fromStr unexpectedEofError) ↔ stream.rest.length < n.toNat) ∧
    (∀ bs, res = .ok bs → stream.rest = bs ++ stream'.rest ∧ bs.length = n.toNat) ∧
    (∀ e, res = .error e → e = .fromStr unexpectedEofError ∧ stream'.rest = [])
  | readUntil byte, .read (.ok bs) =>
    stream.rest = bs ++ stream'.rest ∧ byte ∉ bs.dropLast ∧
      (bs.getLast? ≠ some byte → stream'.rest = [])
  | readUntil _, .read (.error _) => False
  | write _, .wrote _ => stream'.reader = stream.reader
  | _, _ => False

theorem toTcpStreamErr_of_interrupted {e : IoError} (h : e.kind = .interrupted) :
    toTcpStreamErr e = .fromStr "ErrorKind::Interrupted" := by
  rw [toTcpStreamErr, h]

/-! ### The operations -/

section

variable {stream : TcpStream} (hcalm : OnlyInterrupted stream.errs)

include hcalm

theorem tcpReadUpTo_spec (n : UInt64) :
    ∃ res stream', tcpReadUpTo stream n = (res, stream') ∧
      (TcpCall.readUpTo n).Meets stream stream' (.read res) ∧
      stream'.errs <:+ stream.errs := by
  cases hfill : Take.fillBuf ⟨n.toNat, stream.reader⟩ with
  | mk res chunk =>
  cases res with
  | error e =>
    have hrun : tcpReadUpTo stream n =
        (.error (toTcpStreamErr e), { stream with reader := chunk.inner }) := by
      unfold tcpReadUpTo
      simp only [hfill]
    have herrs : stream.errs = e :: chunk.inner.errs := (Take.fillBuf_error hfill).2
    have hkind : e.kind = .interrupted := hcalm e (herrs ▸ List.mem_cons_self ..)
    have hevents : stream.events = .error e :: chunk.inner.events :=
      BufReader.events_fillBuf_error (Take.inner_fillBuf_error hfill)
    refine ⟨_, _, hrun, ⟨e, hkind, hevents, toTcpStreamErr_of_interrupted hkind⟩, ?_⟩
    rw [herrs]
    exact List.suffix_cons e _
  | ok bs =>
    have hrun : tcpReadUpTo stream n =
        (.ok bs, { stream with reader := chunk.inner.consume bs.length }) := by
      unfold tcpReadUpTo
      simp only [hfill]
    obtain ⟨hlen, herrs, hnil, hrest⟩ := Take.fillBuf_ok hfill
    have herrs : chunk.inner.errs = stream.errs := herrs
    refine ⟨_, _, hrun, ⟨hrest, herrs, hlen, ?_⟩, herrs ▸ List.suffix_refl _⟩
    -- No byte is answered: none was asked for, or the stream has ended.
    intro hbs
    exact (hnil hbs).imp_left fun hn => UInt64.toNat_inj.mp hn

theorem tcpReadExactly_spec (sizes : ℕ → List UInt8 → ℕ) {fuel : ℕ}
    (hfuel : stepsLeft stream.reader < fuel) (n : UInt64) :
    ∃ res stream', tcpReadExactly sizes fuel stream n = some (res, stream') ∧
      (TcpCall.readExactly n).Meets stream stream' (.read res) ∧
      stream'.errs <:+ stream.errs := by
  obtain ⟨chunk, hread, hrest, herrs⟩ :=
    Take.readToEnd_spec sizes (t := ⟨n.toNat, stream.reader⟩) [] hcalm hfuel
  have hread : Take.readToEnd sizes fuel ⟨n.toNat, stream.reader⟩ [] =
    some (.ok (stream.rest.take n.toNat), chunk) := hread
  have hrest : chunk.inner.rest = stream.rest.drop n.toNat := hrest
  unfold tcpReadExactly
  simp only [hread, List.length_take]
  -- `Take` gives at most `n` bytes, and fewer only at the end.
  by_cases hlen : stream.rest.length < n.toNat
  · rw [if_pos (by omega)]
    refine ⟨_, _, rfl, ⟨iff_of_true rfl hlen, nofun, ?_⟩, herrs⟩
    intro e he
    cases he
    refine ⟨rfl, ?_⟩
    show chunk.inner.rest = []
    rw [hrest, List.drop_eq_nil_of_le (Nat.le_of_lt hlen)]
  · rw [if_neg (by omega)]
    refine ⟨_, _, rfl, ⟨iff_of_false nofun hlen, ?_, nofun⟩, herrs⟩
    intro bs hbs
    cases hbs
    refine ⟨?_, List.length_take_of_le (Nat.le_of_not_lt hlen)⟩
    show stream.rest = _ ++ chunk.inner.rest
    rw [hrest, List.take_append_drop]

theorem tcpReadUntil_spec [Memchr] {fuel : ℕ} (hfuel : stepsLeft stream.reader < fuel)
    (byte : UInt8) :
    ∃ res stream', tcpReadUntil fuel stream byte = some (res, stream') ∧
      (TcpCall.readUntil byte).Meets stream stream' (.read res) ∧
      stream'.errs <:+ stream.errs := by
  obtain ⟨reader, hread, hrest, herrs⟩ := readUntil_spec byte [] hcalm hfuel
  have hread : readUntil fuel stream.reader byte [] =
    some (.ok (upTo byte stream.rest).length, upTo byte stream.rest, reader) := hread
  have hrest : reader.rest = stream.rest.drop (upTo byte stream.rest).length := hrest
  unfold tcpReadUntil
  rw [hread]
  refine ⟨_, _, rfl, ⟨?_, notMem_dropLast_upTo byte _, fun hlast => ?_⟩, herrs⟩
  · show stream.rest = upTo byte stream.rest ++ reader.rest
    rw [hrest, upTo_append_drop]
  · show reader.rest = []
    rw [hrest, upTo_eq_of_getLast?_ne hlast, List.drop_length]

end

theorem tcpWrite_spec (stream : TcpStream) (msg : List UInt8) :
    ∃ res stream', tcpWrite stream msg = (res, stream') ∧
      (TcpCall.write msg).Meets stream stream' (.wrote res) ∧
      stream'.errs <:+ stream.errs := by
  unfold tcpWrite
  split <;> exact ⟨_, _, rfl, rfl, List.suffix_refl _⟩

/-- **A single call** does with the rest of the stream what it should. -/
theorem TcpCall.run_meets [Memchr] (sizes : ℕ → List UInt8 → ℕ) {fuel : ℕ} {stream : TcpStream}
    (hcalm : OnlyInterrupted stream.errs) (hfuel : stepsLeft stream.reader < fuel)
    (call : TcpCall) :
    ∃ answer stream', call.run sizes fuel stream = some (answer, stream') ∧
      call.Meets stream stream' answer ∧ stream'.errs <:+ stream.errs := by
  cases call with
  | readUpTo n =>
    obtain ⟨res, stream', hrun, h⟩ := tcpReadUpTo_spec hcalm n
    exact ⟨_, _, by rw [run, hrun], h⟩
  | readExactly n =>
    obtain ⟨res, stream', hrun, h⟩ := tcpReadExactly_spec hcalm sizes hfuel n
    exact ⟨_, _, by rw [run, hrun]; rfl, h⟩
  | readUntil byte =>
    obtain ⟨res, stream', hrun, h⟩ := tcpReadUntil_spec hcalm hfuel byte
    exact ⟨_, _, by rw [run, hrun]; rfl, h⟩
  | write msg =>
    obtain ⟨res, stream', hrun, h⟩ := tcpWrite_spec stream msg
    exact ⟨_, _, by rw [run, hrun], h⟩

/-- A call hands out what it takes from the stream, or the stream was too short and is used up. -/
theorem TcpCall.Meets.rest_eq {stream stream' : TcpStream} {call : TcpCall} {answer : TcpAnswer}
    (h : call.Meets stream stream' answer) :
    stream.rest = answer.bytes ++ stream'.rest ∨ answer = .unexpectedEof ∧ stream'.rest = [] := by
  cases call with
  | readUpTo n =>
    cases answer with
    | wrote res => cases h
    | read res =>
      cases res with
      | ok bs => exact .inl h.1
      | error res =>
        -- The interruption that is answered takes no byte.
        obtain ⟨e, -, hevents, -⟩ := h
        have hrest : stream.events.rest = stream'.events.rest := by
          rw [hevents]
          rfl
        rw [TcpStream.events, TcpStream.events, BufReader.rest_events,
          BufReader.rest_events] at hrest
        exact .inl hrest
  | readExactly n =>
    cases answer with
    | wrote res => cases h
    | read res =>
      cases res with
      | ok bs => exact .inl (h.2.1 bs rfl).1
      | error e =>
        obtain ⟨he, hrest'⟩ := h.2.2 e rfl
        exact .inr ⟨by rw [he, TcpAnswer.unexpectedEof], hrest'⟩
  | readUntil byte =>
    cases answer with
    | wrote res => cases h
    | read res =>
      cases res with
      | ok bs => exact .inl h.1
      | error e => cases h
  | write msg =>
    cases answer with
    | wrote res => exact .inl (congrArg BufReader.rest (Eq.symm h))
    | read res => cases h

theorem TcpCall.Meets.length_le {stream stream' : TcpStream} {call : TcpCall}
    {answer : TcpAnswer} (h : call.Meets stream stream' answer) :
    stream'.rest.length ≤ stream.rest.length := by
  rcases h.rest_eq with hrest | ⟨-, hrest⟩
  · rw [hrest, List.length_append]
    omega
  · rw [hrest]
    exact Nat.zero_le _

/-! ### Runs -/

/-- What a run that has handed out `bytes` may leave of a stream: what is behind these bytes, or
nothing when a `tcp_read_exactly` has asked for more than was left. -/
def RunMeets (rest rest' : List UInt8) (answers : List TcpAnswer) : Prop :=
  rest = delivered answers ++ rest' ∨
    .unexpectedEof ∈ answers ∧ delivered answers <+: rest ∧ rest' = []

theorem RunMeets.isPrefix {rest rest' : List UInt8} {answers : List TcpAnswer}
    (h : RunMeets rest rest' answers) : delivered answers <+: rest := by
  rcases h with rfl | ⟨-, hprefix, -⟩
  · exact List.prefix_append _ _
  · exact hprefix

theorem RunMeets.append {rest rest₁ rest₂ : List UInt8} {answers answers' : List TcpAnswer}
    (h : RunMeets rest rest₁ answers) (h' : RunMeets rest₁ rest₂ answers') :
    RunMeets rest rest₂ (answers ++ answers') := by
  have happend : delivered (answers ++ answers') = delivered answers ++ delivered answers' :=
    List.flatMap_append
  rcases h with rfl | ⟨heof, hprefix, rfl⟩
  · rcases h' with rfl | ⟨heof, hprefix, hrest₂⟩
    · exact .inl (by rw [happend, List.append_assoc])
    · refine .inr ⟨List.mem_append_right _ heof, ?_, hrest₂⟩
      rw [happend]
      exact (List.prefix_append_right_inj _).mpr hprefix
  · -- Behind the end of the stream nothing is handed out.
    have hnil : delivered answers' = [] := List.prefix_nil.mp h'.isPrefix
    refine .inr ⟨List.mem_append_left _ heof, by rwa [happend, hnil, List.append_nil], ?_⟩
    rcases h' with h | ⟨-, -, h⟩
    · exact (List.append_eq_nil_iff.mp h.symm).2
    · exact h

theorem TcpCall.Meets.runMeets {stream stream' : TcpStream} {call : TcpCall} {answer : TcpAnswer}
    (h : call.Meets stream stream' answer) : RunMeets stream.rest stream'.rest [answer] := by
  have hsingle : delivered [answer] = answer.bytes := List.flatMap_singleton ..
  rcases h.rest_eq with hrest | ⟨rfl, hrest⟩
  · exact .inl (by rw [hsingle, hrest])
  · exact .inr ⟨List.mem_singleton.mpr rfl, List.nil_prefix, hrest⟩

/-- **A run of calls** hands out the peer's stream from its start on. -/
theorem runCalls_spec [Memchr] (sizes : ℕ → List UInt8 → ℕ) {fuel : ℕ} {stream : TcpStream}
    (hcalm : OnlyInterrupted stream.errs) (hfuel : stepsLeft stream.reader < fuel)
    (calls : List TcpCall) :
    ∃ answers stream', stream.runCalls sizes fuel calls = some (answers, stream') ∧
      RunMeets stream.rest stream'.rest answers ∧ OnlyInterrupted stream'.errs ∧
      stepsLeft stream'.reader < fuel := by
  induction calls generalizing stream with
  | nil => exact ⟨[], stream, rfl, .inl rfl, hcalm, hfuel⟩
  | cons call calls ih =>
    obtain ⟨answer, stream₁, hcall, hmeets, herrs⟩ := call.run_meets sizes hcalm hfuel
    -- A call leaves no more to read than there was, so the fuel is enough for the others.
    have hsteps : stepsLeft stream₁.reader ≤ stepsLeft stream.reader :=
      Nat.add_le_add hmeets.length_le herrs.length_le
    obtain ⟨answers, stream', hrun, hrunMeets, h⟩ := ih (fun e he => hcalm e (herrs.mem he))
      (Nat.lt_of_le_of_lt hsteps hfuel)
    refine ⟨answer :: answers, stream', ?_, hmeets.runMeets.append hrunMeets, h⟩
    rw [TcpStream.runCalls, hcall]
    show (stream₁.runCalls sizes fuel calls).bind _ = _
    rw [hrun]
    rfl

/-- A new stream has all that the peer sends before it. -/
theorem tcpConnect_spec (socket : TcpSocket) :
    ∃ stream, tcpConnect (.ok socket) (.ok ()) = .ok stream ∧ stream.rest = socket.incoming.rest ∧
      stream.errs = socket.incoming.errs :=
  ⟨⟨.new socket.incoming, socket.outgoing, []⟩, rfl, rfl, rfl⟩

/-- **What a program gets from a TCP stream**: after any calls, whatever the next call, the bytes
handed out so far are a prefix of what the peer sends, and the next call does with the rest what it
should.  The rest is what is behind the bytes handed out, unless a `tcp_read_exactly` has asked for
more than was left. -/
theorem tcp_calls [Memchr] (sizes : ℕ → List UInt8 → ℕ) (socket : TcpSocket)
    (hcalm : OnlyInterrupted socket.incoming.errs) :
    ∃ stream, tcpConnect (.ok socket) (.ok ()) = .ok stream ∧
      ∃ N, ∀ fuel ≥ N, ∀ (calls : List TcpCall) (call : TcpCall),
        ∃ answers stream₁ answer stream₂,
          stream.runCalls sizes fuel calls = some (answers, stream₁) ∧
          call.run sizes fuel stream₁ = some (answer, stream₂) ∧
          delivered (answers ++ [answer]) <+: socket.incoming.rest ∧
          call.Meets stream₁ stream₂ answer ∧
          (socket.incoming.rest = delivered answers ++ stream₁.rest ∨
            .unexpectedEof ∈ answers ∧ stream₁.rest = []) := by
  obtain ⟨stream, hconnect, hrest, herrs⟩ := tcpConnect_spec socket
  refine ⟨stream, hconnect, stepsLeft stream.reader + 1, ?_⟩
  intro fuel hfuel calls call
  obtain ⟨answers, stream₁, hrun, hrunMeets, hcalm₁, hfuel₁⟩ :=
    runCalls_spec sizes (herrs ▸ hcalm) (Nat.lt_of_succ_le hfuel) calls
  -- After any calls the stream meets the same assumptions, so the next one meets its rule.
  obtain ⟨answer, stream₂, hcall, hmeets, -⟩ := call.run_meets sizes hcalm₁ hfuel₁
  rw [hrest] at hrunMeets
  exact ⟨answers, stream₁, answer, stream₂, hrun, hcall,
    (hrunMeets.append hmeets.runMeets).isPrefix, hmeets, hrunMeets.imp_right fun h => ⟨h.1, h.2.2⟩⟩

/-- The peer sends `hi` and, after a read that is interrupted, a newline. -/
theorem tcp_calls_hi :
    ∃ stream fuel answers stream₁ answer stream₂,
      tcpConnect (.ok ⟨[.data 104 [105], .error ⟨.interrupted, ""⟩, .data 10 []], []⟩) (.ok ()) =
        .ok stream ∧
      stream.runCalls (fun _ _ => 31) fuel [.readUpTo 1, .write [33], .readExactly 1] =
        some (answers, stream₁) ∧
      (TcpCall.readUntil 10).run (fun _ _ => 31) fuel stream₁ = some (answer, stream₂) ∧
      delivered (answers ++ [answer]) <+: [104, 105, 10] ∧
      (TcpCall.readUntil 10).Meets stream₁ stream₂ answer := by
  obtain ⟨stream, hconnect, N, h⟩ := tcp_calls (fun _ _ => 31)
    ⟨[.data 104 [105], .error ⟨.interrupted, ""⟩, .data 10 []], []⟩ (by
      intro e he
      rw [List.mem_singleton.mp he])
  obtain ⟨answers, stream₁, answer, stream₂, hrun, hcall, hprefix, hmeets, -⟩ :=
    h N (Nat.le_refl N) [.readUpTo 1, .write [33], .readExactly 1] (.readUntil 10)
  exact ⟨stream, N, answers, stream₁, answer, stream₂, hconnect, hrun, hcall, hprefix, hmeets⟩

end BasicCli
