import BasicCli.File.Equiv.Loss
import BasicCli.Tcp.Equiv.Stream

/-!
# What calls on a handle lose

The bytes that a call has taken from the buffer are dropped when it answers an error.

* `reads_lose_nothing_iff`: in every state that calls on a handle reach, what has been delivered and
  what is left make up the stream, iff no call is cut off behind its first byte.
-/

namespace BasicCli

open StdIo LawfulBufRead Run

/-- A call that is not cut off behind its first byte: it does not take any byte before a failure or
the end of the stream, unless it comes to the end of its line or its block. -/
def TcpCall.Whole : TcpCall → TcpStream → Prop
  | readUpTo _, _ => True
  | readExactly n, stream =>
    n.toNat ≤ stream.reader.beforeFailure.length ∨ stream.reader.beforeFailure = []
  | readUntil byte, stream => LineWhole byte stream.reader
  | write _, _ => True

/-- A call as a step of the stream. -/
def TcpCall.step [Memchr] (sizes : ℕ → List UInt8 → ℕ) (fuel : ℕ) (call : TcpCall)
    (stream : TcpStream) : Except Unit (TcpAnswer × TcpStream) :=
  (call.run sizes fuel stream).elim (.error ()) .ok

/-- What a call does that delivers what it takes iff it is whole. -/
def TcpCall.Delivers (call : TcpCall) (stream : TcpStream) (answer : TcpAnswer)
    (stream' : TcpStream) : Prop :=
  stepsLeft stream'.reader ≤ stepsLeft stream.reader ∧
    (stream.rest = answer.bytes ++ stream'.rest ↔ call.Whole stream)

/-! ### The operations -/

theorem tcpReadUpTo_delivers (stream : TcpStream) (n : UInt64) :
    ∃ res stream', tcpReadUpTo stream n = (res, stream') ∧
      (TcpCall.readUpTo n).Delivers stream (.read res) stream' := by
  rcases hfill : Take.fillBuf ⟨n.toNat, stream.reader⟩ with ⟨e | bs, chunk⟩
  · have hrun : tcpReadUpTo stream n =
        (.error (toTcpStreamErr e), { stream with reader := chunk.inner }) := by
      unfold tcpReadUpTo
      simp only [hfill]
    -- The error is taken from the stream, and no byte with it.
    have hrest : chunk.inner.rest = stream.reader.rest := (Take.fillBuf_error hfill).1
    have herrs : stream.reader.errs = e :: chunk.inner.errs := (Take.fillBuf_error hfill).2
    have hlen := congrArg List.length herrs
    rw [List.length_cons] at hlen
    refine ⟨_, _, hrun, ?_, iff_of_true hrest.symm trivial⟩
    show chunk.inner.rest.length + chunk.inner.errs.length ≤
      stream.reader.rest.length + stream.reader.errs.length
    rw [hrest]
    omega
  · have hrun : tcpReadUpTo stream n =
        (.ok bs, { stream with reader := chunk.inner.consume bs.length }) := by
      unfold tcpReadUpTo
      simp only [hfill]
    -- All that the buffer gives is answered and consumed.
    obtain ⟨-, herrs, -, hrest⟩ := Take.fillBuf_ok hfill
    have herrs : chunk.inner.errs = stream.reader.errs := herrs
    have hlen : stream.reader.rest.length = _ := congrArg List.length hrest
    rw [List.length_append] at hlen
    refine ⟨_, _, hrun, ?_, iff_of_true hrest trivial⟩
    show (chunk.inner.consume bs.length).rest.length + chunk.inner.errs.length ≤
      stream.reader.rest.length + stream.reader.errs.length
    rw [herrs]
    omega

theorem tcpReadExactly_delivers (sizes : ℕ → List UInt8 → ℕ) {fuel : ℕ} {stream : TcpStream}
    (hfuel : stepsLeft stream.reader < fuel) (n : UInt64) :
    ∃ res stream', tcpReadExactly sizes fuel stream n = some (res, stream') ∧
      (TcpCall.readExactly n).Delivers stream (.read res) stream' := by
  obtain ⟨res, taken, chunk, hread, hreads⟩ :=
    Take.readToEnd_reads sizes ⟨n.toNat, stream.reader⟩ [] hfuel
  have hrest : stream.reader.rest = taken ++ chunk.inner.rest := hreads.rest_eq
  have hsteps : stepsLeft chunk.inner ≤ stepsLeft stream.reader := hreads.length_add_length_le
  -- An error delivers nothing, so that all is left iff nothing has been taken.
  have hlost : stream.reader.rest = chunk.inner.rest ↔ taken = [] := by
    rw [hrest, List.append_left_eq_self]
  rcases res with e | bytes
  · have hrun : tcpReadExactly sizes fuel stream n =
        some (.error (toTcpStreamErr e), { stream with reader := chunk.inner }) := by
      unfold tcpReadExactly
      simp only [hread]
    obtain ⟨rfl, hlen⟩ := hreads.error e rfl
    have hlen : ¬ n.toNat ≤ stream.reader.beforeFailure.length := Nat.not_le.mpr hlen
    refine ⟨_, _, hrun, hsteps, hlost.trans ?_⟩
    exact (or_iff_right hlen).symm
  · obtain ⟨hbytes, -, hbefore⟩ := hreads.ok bytes rfl
    have hbytes : bytes = taken := hbytes
    have hbefore : taken <+: stream.reader.beforeFailure := hbefore
    subst hbytes
    by_cases hlen : bytes.length < n.toNat
    · -- The stream ends, or the peer closes it, before the block is full.
      have hrun : tcpReadExactly sizes fuel stream n = some
          (.error (.fromStr unexpectedEofError), { stream with reader := chunk.inner }) := by
        unfold tcpReadExactly
        simp only [hread, if_pos hlen]
      have hbefore : stream.reader.beforeFailure = bytes := hreads.beforeFailure_of_lt hlen
      refine ⟨_, _, hrun, hsteps, hlost.trans ?_⟩
      rw [TcpCall.Whole, hbefore]
      exact (or_iff_right (Nat.not_le.mpr hlen)).symm
    · have hrun : tcpReadExactly sizes fuel stream n =
          some (.ok bytes, { stream with reader := chunk.inner }) := by
        unfold tcpReadExactly
        simp only [hread, if_neg hlen]
      have hwhole := (Nat.not_lt.mp hlen).trans hbefore.length_le
      exact ⟨_, _, hrun, hsteps, iff_of_true hrest (.inl hwhole)⟩

theorem tcpReadUntil_delivers [Memchr] {fuel : ℕ} {stream : TcpStream}
    (hfuel : stepsLeft stream.reader < fuel) (byte : UInt8) :
    ∃ res stream', tcpReadUntil fuel stream byte = some (res, stream') ∧
      (TcpCall.readUntil byte).Delivers stream (.read res) stream' := by
  obtain ⟨ret, bytes, reader, hread, hrest, hsteps, hwhole⟩ := readUntil_whole byte hfuel
  have hrest : stream.reader.rest = bytes ++ reader.rest := hrest
  rcases ret with e | k
  · have hrun : tcpReadUntil fuel stream byte =
        some (.error (toTcpStreamErr e), { stream with reader }) := by
      rw [tcpReadUntil, hread]
    have hlost : stream.reader.rest = reader.rest ↔ bytes = [] := by
      rw [hrest, List.append_left_eq_self]
    refine ⟨_, _, hrun, hsteps, hlost.trans ?_⟩
    rw [TcpCall.Whole, ← hwhole]
    simp
  · have hrun : tcpReadUntil fuel stream byte = some (.ok bytes, { stream with reader }) := by
      rw [tcpReadUntil, hread]
    exact ⟨_, _, hrun, hsteps, iff_of_true hrest (hwhole.mp (.inl ⟨k, rfl⟩))⟩

theorem tcpWrite_delivers (stream : TcpStream) (msg : List UInt8) :
    ∃ res stream', tcpWrite stream msg = (res, stream') ∧
      (TcpCall.write msg).Delivers stream (.wrote res) stream' := by
  unfold tcpWrite
  rcases writeAll stream.outgoing msg with ⟨_ | _, taken, outgoing⟩
  · exact ⟨_, _, rfl, Nat.le_refl _, iff_of_true rfl trivial⟩
  · exact ⟨_, _, rfl, Nat.le_refl _, iff_of_true rfl trivial⟩

/-- **A single call** answers, and delivers what it takes iff it is whole. -/
theorem TcpCall.step_delivers [Memchr] (sizes : ℕ → List UInt8 → ℕ) {fuel : ℕ} {stream : TcpStream}
    (hfuel : stepsLeft stream.reader < fuel) (call : TcpCall) :
    ∃ answer stream', call.step sizes fuel stream = .ok (answer, stream') ∧
      call.Delivers stream answer stream' := by
  cases call with
  | readUpTo n =>
    obtain ⟨res, stream', hrun, h⟩ := tcpReadUpTo_delivers stream n
    exact ⟨_, _, by rw [step, run, hrun]; rfl, h⟩
  | readExactly n =>
    obtain ⟨res, stream', hrun, h⟩ := tcpReadExactly_delivers sizes hfuel n
    exact ⟨_, _, by rw [step, run, hrun]; rfl, h⟩
  | readUntil byte =>
    obtain ⟨res, stream', hrun, h⟩ := tcpReadUntil_delivers hfuel byte
    exact ⟨_, _, by rw [step, run, hrun]; rfl, h⟩
  | write msg =>
    obtain ⟨res, stream', hrun, h⟩ := tcpWrite_delivers stream msg
    exact ⟨_, _, by rw [step, run, hrun]; rfl, h⟩

/-! ### Runs -/

/-- **A run delivers what it takes** iff each of its calls does. -/
theorem run_delivers_iff {σ α β : Type} {step : α → σ → Except Unit (β × σ)}
    {left : σ → List UInt8} {bytes : β → List UInt8} (size : σ → ℕ) {Whole : α → σ → Prop}
    {fuel : ℕ}
    (hstep : ∀ a s, size s < fuel → ∃ b s', step a s = .ok (b, s') ∧ size s' ≤ size s ∧
      (left s = bytes b ++ left s' ↔ Whole a s))
    (as : List α) {s : σ} (hs : size s < fuel) :
    (∃ r, run step as s = .ok r) ∧
      (Along step Whole as s ↔ ∀ n bs s', run step (as.take n) s = .ok (bs, s') →
        left s = bs.flatMap bytes ++ left s') := by
  -- `step` is a function: what `hstep` says of some answer holds of the one it gives.
  have hdelivers : ∀ a s b s', size s < fuel → step a s = .ok (b, s') →
      size s' ≤ size s ∧ (left s = bytes b ++ left s' ↔ Whole a s) := by
    intro a s b s' hs h
    obtain ⟨b₁, s₁, h₁, hdelivers⟩ := hstep a s hs
    rw [h] at h₁
    cases h₁
    exact hdelivers
  have hok : ∀ a s b s', size s < fuel → step a s = .ok (b, s') → size s' < fuel :=
    fun a s b s' hs h => Nat.lt_of_le_of_lt (hdelivers a s b s' hs h).1 hs
  have herror : ∀ a s e, size s < fuel → step a s = .error e → False := by
    intro a s e hs h
    obtain ⟨b₁, s₁, h₁, -⟩ := hstep a s hs
    rw [h] at h₁
    cases h₁
  constructor
  · rcases h : run step as s with e | r
    · exact ((run_invariant (fun s => size s < fuel) (fun _ => False)
        (fun a _ => hok a) (fun a _ => herror a) hs).2 e h).elim
    · exact ⟨r, rfl⟩
  · -- One more call keeps the equation iff it delivers what it takes.
    have happend : ∀ bs a s' b s₁, size s' < fuel → left s = bs.flatMap bytes ++ left s' →
        step a s' = .ok (b, s₁) →
        (left s = (bs ++ [b]).flatMap bytes ++ left s₁ ↔ Whole a s') := by
      intro bs a s' b s₁ hs' hleft h
      rw [← (hdelivers a s' b s₁ hs' h).2, hleft, List.flatMap_append, List.flatMap_singleton,
        List.append_assoc, List.append_cancel_left_eq]
    exact along_iff (H := fun bs s' => left s = bs.flatMap bytes ++ left s') hok happend
      (fun a s e hs h => (herror a s e hs h).elim) hs rfl

/-- **Calls lose nothing** iff none of them is cut off behind its first byte: then, and only then,
what has been delivered and what is left make up the file or the peer's stream after any number of
them, so that the next answer begins with the first byte that has not been delivered.  The calls all
return, where the heap has room for what they allocate. -/
theorem reads_lose_nothing_iff [Memchr] {E : Type} (into : IoError → E)
    (sizes : ℕ → List UInt8 → ℕ) :
    (∀ (file : Source) (size : UInt64), ∃ reader,
      fileReader into (.ok file) size (.ok ()) = .ok reader ∧ ∃ N, ∀ fuel ≥ N, ∀ calls,
        (∃ r, run (fileReadLineStep into fuel) calls reader = .ok r) ∧
        (Along (fileReadLineStep into fuel) (fun _ => LineWhole 10) calls reader ↔
          ∀ n answers reader',
            run (fileReadLineStep into fuel) (calls.take n) reader = .ok (answers, reader') →
              file.rest = answers.flatMap lineBytes ++ rest reader')) ∧
    ∀ socket : TcpSocket, ∃ stream,
      tcpConnect (.ok socket) (.ok ()) = .ok stream ∧ ∃ N, ∀ fuel ≥ N, ∀ calls,
        (∃ r, run (TcpCall.step sizes fuel) calls stream = .ok r) ∧
        (Along (TcpCall.step sizes fuel) TcpCall.Whole calls stream ↔
          ∀ n answers stream',
            run (TcpCall.step sizes fuel) (calls.take n) stream = .ok (answers, stream') →
              socket.incoming.rest = delivered answers ++ stream'.rest) := by
  constructor
  · intro file size
    -- The measure is what is left to read, with its failures.
    obtain ⟨reader, hreader, hrest, -⟩ := fileReader_spec into file size
    refine ⟨reader, hreader, stepsLeft reader + 1, fun fuel hfuel calls => ?_⟩
    rw [← hrest]
    exact run_delivers_iff stepsLeft (fun _ r hr => fileReadLine_step into hr) calls
      (Nat.lt_of_succ_le hfuel)
  · intro socket
    obtain ⟨stream, hconnect, hrest, -⟩ := tcpConnect_spec socket
    refine ⟨stream, hconnect, stepsLeft stream.reader + 1, fun fuel hfuel calls => ?_⟩
    rw [← hrest]
    exact run_delivers_iff (fun stream : TcpStream => stepsLeft stream.reader)
      (fun call s hs => call.step_delivers sizes hs) calls (Nat.lt_of_succ_le hfuel)

/-- The peer sends `hi`, of which each of two calls asks for one byte. -/
theorem reads_lose_nothing_hi :
    ∃ stream fuel, tcpConnect (.ok ⟨[.data 104 [105]], []⟩) (.ok ()) = .ok stream ∧
      (Along (TcpCall.step (fun _ _ => 31) fuel) TcpCall.Whole [.readUpTo 1, .readExactly 1]
          stream ↔
        ∀ n answers stream',
          run (TcpCall.step (fun _ _ => 31) fuel) ([.readUpTo 1, .readExactly 1].take n) stream =
            .ok (answers, stream') → [104, 105] = delivered answers ++ stream'.rest) := by
  obtain ⟨stream, hconnect, N, h⟩ :=
    (reads_lose_nothing_iff id fun _ _ => 31).2 ⟨[.data 104 [105]], []⟩
  exact ⟨stream, N, hconnect, (h N le_rfl [.readUpTo 1, .readExactly 1]).2⟩

/-- A read of a file fails behind the first byte of a line: the next line begins without it.  And a
peer sends fewer bytes than are asked for: they are not there any more. -/
theorem not_reads_lose_nothing :
    (¬ ∀ answers reader', run (fileReadLineStep id 10) [(), ()]
        (.new [.data 97 [], .error ⟨.timedOut, ""⟩, .data 98 [10]]) = .ok (answers, reader') →
      [97, 98, 10] = answers.flatMap lineBytes ++ rest reader') ∧
    ¬ ∀ answers stream', run (TcpCall.step (fun _ _ => 31) 10) [.readExactly 3, .readUntil 10]
        ⟨.new [.data 104 [105]], [], []⟩ = .ok (answers, stream') →
      [104, 105] = delivered answers ++ stream'.rest := by
  constructor
  · intro h
    -- The byte before the failure has left the buffer and is in no answer.
    have hrun : run (fileReadLineStep id 10) [(), ()]
        (.new [.data 97 [], .error ⟨.timedOut, ""⟩, .data 98 [10]]) =
          .ok ([.error ⟨.timedOut, ""⟩, .ok [98, 10]], .new []) := rfl
    have hlost := h _ _ hrun
    revert hlost
    decide
  · intro h
    -- The two bytes of the short read are dropped with its answer.
    have hrun : run (TcpCall.step (fun _ _ => 31) 10) [.readExactly 3, .readUntil 10]
        ⟨.new [.data 104 [105]], [], []⟩ =
          .ok ([.unexpectedEof, .read (.ok [])], ⟨.new [], [], []⟩) := rfl
    have hlost := h _ _ hrun
    revert hlost
    decide

end BasicCli
