import BasicCli.StdIo.Equiv.Reader

/-!
# What comes before a failing read

`beforeFailure` are the bytes that a reader gets before a read fails, interruptions not counted: all
that is to come, if none fails.  `failure?` is that failure, with what is behind it.

* `Take.readToEnd_reads`: what `read_to_end` under a limit does on whatever reader.
-/

namespace BasicCli.StdIo

/-! ### Sources -/

namespace Source

/-- The bytes that come before the first failure that is no interruption. -/
def beforeFailure : Source → List UInt8
  | [] => []
  | .data b bs :: s => b :: bs ++ beforeFailure s
  | .error e :: s => if e.kind = .interrupted then beforeFailure s else []

/-- The first failure that is no interruption, with what is behind it. -/
def failure? : Source → Option (IoError × Source)
  | [] => none
  | .data _ _ :: s => failure? s
  | .error e :: s => if e.kind = .interrupted then failure? s else some (e, s)

@[simp] theorem failure?_push (bs : List UInt8) (s : Source) :
    failure? (push bs s) = failure? s := by
  cases bs <;> rfl

/-- An interruption is no failure. -/
theorem failure?_error (e : IoError) (s : Source) :
    failure? (.error e :: s) = if e.kind = .interrupted then failure? s else some (e, s) := rfl

/-- Bytes do not fail. -/
theorem failure?_read_ok {m : ℕ} {s s' : Source} {bs : List UInt8} (h : s.read m = (.ok bs, s')) :
    failure? s = failure? s' := by
  cases s with
  | nil =>
    cases h
    rfl
  | cons event s =>
    cases event with
    | error e => cases h
    | data b cs =>
      cases h
      show failure? s = _
      rw [failure?_push]

theorem beforeFailure_push (bs : List UInt8) (s : Source) :
    beforeFailure (push bs s) = bs ++ beforeFailure s := by
  cases bs <;> rfl

/-- What comes before the failure comes first. -/
theorem beforeFailure_isPrefix (s : Source) : beforeFailure s <+: rest s := by
  induction s with
  | nil => exact List.prefix_rfl
  | cons event s ih =>
    cases event with
    | data b bs => exact (List.prefix_append_right_inj (b :: bs)).mpr ih
    | error e =>
      rw [beforeFailure]
      split_ifs
      · exact ih
      · exact List.nil_prefix

/-- A read takes from what comes before the failure. -/
theorem beforeFailure_read_ok {m : ℕ} {s s' : Source} {bs : List UInt8}
    (h : s.read m = (.ok bs, s')) : beforeFailure s = bs ++ beforeFailure s' := by
  cases s with
  | nil =>
    cases h
    rfl
  | cons event s =>
    cases event with
    | error e => cases h
    | data b cs =>
      cases h
      rw [beforeFailure_push, ← List.append_assoc, List.take_append_drop]
      rfl

theorem beforeFailure_read_error {m : ℕ} {s s' : Source} {e : IoError}
    (h : s.read m = (.error e, s')) :
    beforeFailure s = if e.kind = .interrupted then beforeFailure s' else [] := by
  cases s with
  | nil => cases h
  | cons event s =>
    cases event with
    | error e' =>
      cases h
      rfl
    | data b cs => cases h

/-- A source that has nothing more has no failures either. -/
theorem errs_of_read_nil {m : ℕ} (hm : 0 < m) {s s' : Source} (h : s.read m = (.ok [], s')) :
    errs s = [] := by
  cases s with
  | nil => rfl
  | cons event s =>
    cases event with
    | error e => cases h
    | data b cs =>
      -- A read of at least one byte shows some of the data.
      obtain ⟨m, rfl⟩ := Nat.exists_eq_succ_of_ne_zero (Nat.pos_iff_ne_zero.mp hm)
      cases h

end Source

/-! ### `BufReader` -/

namespace BufReader

/-- The bytes that come before the first failure that is no interruption. -/
def beforeFailure (r : BufReader) : List UInt8 := r.buf ++ r.inner.beforeFailure

variable {r r' : BufReader} {bs : List UInt8} {e : IoError}

theorem beforeFailure_events (r : BufReader) : r.events.beforeFailure = r.beforeFailure :=
  Source.beforeFailure_push _ _

theorem failure?_events (r : BufReader) : r.events.failure? = r.inner.failure? :=
  Source.failure?_push _ _

/-- A fill that succeeds leaves the failure to come, however much of it is consumed. -/
theorem failure?_fillBuf_ok (h : r.fillBuf = (.ok bs, r')) (k : ℕ) :
    r.events.failure? = (r'.consume k).events.failure? := by
  rw [failure?_events, failure?_events]
  obtain ⟨capacity, buf, inner, hc⟩ := r
  unfold fillBuf at h
  cases buf with
  | cons b buf =>
    cases h
    rfl
  | nil =>
    dsimp only at h
    rcases hread : inner.read capacity with ⟨e | bs', s⟩
    · rw [hread] at h
      cases h
    · rw [hread] at h
      cases h
      exact Source.failure?_read_ok hread

/-- A failing `read` has come to a failure, and is past it. -/
theorem events_read_error {m : ℕ} (h : r.read m = (.error e, r')) :
    r.events = .error e :: r'.events := by
  unfold read at h
  split_ifs at h with hbypass
  · rcases hread : r.inner.read m with ⟨res, s⟩
    rw [hread] at h
    cases h
    rw [events, events, hbypass.1]
    exact Source.eq_cons_of_read_error hread
  · rcases hfill : r.fillBuf with ⟨e' | cs, r₁⟩
    · rw [hfill] at h
      cases h
      exact events_fillBuf_error hfill
    · rw [hfill] at h
      cases h

theorem beforeFailure_isPrefix (r : BufReader) : r.beforeFailure <+: r.rest :=
  (List.prefix_append_right_inj r.buf).mpr r.inner.beforeFailure_isPrefix

/-- A fill that succeeds takes nothing; nothing is shown only at the end, where no failure is to
come. -/
theorem beforeFailure_fillBuf_ok (h : r.fillBuf = (.ok bs, r')) :
    r'.beforeFailure = r.beforeFailure ∧ (bs = [] → r.errs = []) := by
  obtain ⟨capacity, buf, inner, hc⟩ := r
  unfold fillBuf at h
  cases buf with
  | cons b buf =>
    cases h
    exact ⟨rfl, fun hnil => by cases hnil⟩
  | nil =>
    dsimp only at h
    rcases hread : inner.read capacity with ⟨e | bs', s⟩
    · rw [hread] at h
      cases h
    · rw [hread] at h
      cases h
      refine ⟨(Source.beforeFailure_read_ok hread).symm, ?_⟩
      rintro rfl
      exact Source.errs_of_read_nil hc hread

theorem beforeFailure_fillBuf_error (h : r.fillBuf = (.error e, r')) :
    r.beforeFailure = if e.kind = .interrupted then r'.beforeFailure else [] := by
  obtain ⟨capacity, buf, inner, hc⟩ := r
  unfold fillBuf at h
  cases buf with
  | cons b buf => cases h
  | nil =>
    dsimp only at h
    rcases hread : inner.read capacity with ⟨e' | bs', s⟩
    · rw [hread] at h
      cases h
      exact Source.beforeFailure_read_error hread
    · rw [hread] at h
      cases h

/-- What is consumed is off what comes before the failure. -/
theorem beforeFailure_consume {k : ℕ} (h : r.fillBuf = (.ok bs, r')) (hk : k ≤ bs.length) :
    (r'.consume k).beforeFailure = r.beforeFailure.drop k := by
  obtain ⟨hbuf, -⟩ := fillBuf_ok h
  rw [← (beforeFailure_fillBuf_ok h).1, beforeFailure, beforeFailure, consume, hbuf,
    List.drop_append_of_le_length hk]

/-- What is shown comes before the failure. -/
theorem isPrefix_beforeFailure (h : r.fillBuf = (.ok bs, r')) : bs <+: r.beforeFailure := by
  obtain ⟨hbuf, -⟩ := fillBuf_ok h
  rw [← (beforeFailure_fillBuf_ok h).1, beforeFailure, hbuf]
  exact List.prefix_append _ _

theorem beforeFailure_read_ok {m : ℕ} (h : r.read m = (.ok bs, r')) :
    r.beforeFailure = bs ++ r'.beforeFailure ∧ (0 < m → bs = [] → r.errs = []) := by
  unfold read at h
  split_ifs at h with hbypass
  · -- The buffer is empty and the read is large: the source is asked directly.
    rcases hread : r.inner.read m with ⟨res, s⟩
    rw [hread] at h
    cases h
    rw [beforeFailure, beforeFailure, hbypass.1, Source.beforeFailure_read_ok hread]
    refine ⟨rfl, ?_⟩
    rintro hm rfl
    exact Source.errs_of_read_nil hm hread
  · rcases hfill : r.fillBuf with ⟨e | cs, r₁⟩
    · rw [hfill] at h
      cases h
    · rw [hfill] at h
      cases h
      -- Only the first `m` bytes of what is shown are consumed.
      have htake : cs.take m <+: r.beforeFailure :=
        (List.take_prefix m cs).trans (isPrefix_beforeFailure hfill)
      refine ⟨?_, fun hm hcs => ?_⟩
      · rw [beforeFailure_consume hfill (List.length_take_le' _ _)]
        exact (append_drop_of_isPrefix htake).symm
      · rcases List.take_eq_nil_iff.mp hcs with hm' | hcs
        · omega
        · exact (beforeFailure_fillBuf_ok hfill).2 hcs

theorem beforeFailure_read_error {m : ℕ} (h : r.read m = (.error e, r')) :
    r.beforeFailure = if e.kind = .interrupted then r'.beforeFailure else [] := by
  unfold read at h
  split_ifs at h with hbypass
  · rcases hread : r.inner.read m with ⟨res, s⟩
    rw [hread] at h
    cases h
    rw [beforeFailure, beforeFailure, hbypass.1]
    exact Source.beforeFailure_read_error hread
  · rcases hfill : r.fillBuf with ⟨e' | cs, r₁⟩
    · rw [hfill] at h
      cases h
      exact beforeFailure_fillBuf_error hfill
    · rw [hfill] at h
      cases h

end BufReader

/-! ### `Take` -/

namespace Take

variable {t t' : Take} {bs : List UInt8} {e : IoError} {m : ℕ}

/-- A read through `Take` takes from what comes before the failure. -/
theorem beforeFailure_read_ok (h : t.read m = (.ok bs, t')) :
    t.inner.beforeFailure = bs ++ t'.inner.beforeFailure := by
  unfold read at h
  split_ifs at h with hlimit
  · cases h
    rfl
  · rcases hread : t.inner.read (min m t.limit) with ⟨e | cs, r⟩
    · rw [hread] at h
      cases h
    · rw [hread] at h
      cases h
      exact (BufReader.beforeFailure_read_ok hread).1

/-- A read through `Take` that fails has asked the reader, so that the limit is not yet reached. -/
theorem beforeFailure_read_error (h : t.read m = (.error e, t')) :
    (t.inner.beforeFailure = if e.kind = .interrupted then t'.inner.beforeFailure else []) ∧
      0 < t.limit := by
  unfold read at h
  split_ifs at h with hlimit
  · cases h
  · rcases hread : t.inner.read (min m t.limit) with ⟨e' | cs, r⟩
    · rw [hread] at h
      cases h
      exact ⟨BufReader.beforeFailure_read_error hread, Nat.pos_of_ne_zero hlimit⟩
    · rw [hread] at h
      cases h

/-- What `read_to_end` under a limit makes of a reader that may fail: it takes the stream up to the
limit, or the bytes before a failure that comes first. -/
structure ReadsToEnd (t : Take) (buf : List UInt8) (res : Except IoError (List UInt8))
    (taken : List UInt8) (t' : Take) : Prop where
  rest_eq : t.inner.rest = taken ++ t'.inner.rest
  errs_suffix : t'.inner.errs <:+ t.inner.errs
  ok : ∀ bytes, res = .ok bytes → bytes = buf ++ taken ∧ taken = t.inner.rest.take t.limit ∧
    taken <+: t.inner.beforeFailure
  error : ∀ e, res = .error e → taken = t.inner.beforeFailure ∧
    t.inner.beforeFailure.length < t.limit

namespace ReadsToEnd

variable {t₁ : Take} {buf taken : List UInt8} {res : Except IoError (List UInt8)}

/-- The limit or the end has been reached. -/
theorem of_end (hm : 0 < m) (hread : t.read m = (.ok [], t₁)) :
    ReadsToEnd t buf (.ok buf) [] t₁ := by
  obtain ⟨hrest, herrs, -, hend⟩ := read_ok hm hread
  refine ⟨hrest, herrs ▸ List.suffix_refl _, fun bytes h => ?_, fun e h => ?_⟩
  · cases h
    refine ⟨(List.append_nil buf).symm, ?_, List.nil_prefix⟩
    rcases hend rfl with hlimit | hnil
    · rw [hlimit, List.take_zero]
    · rw [hnil, List.take_nil]
  · cases h

/-- Some bytes have been read. -/
theorem of_more (hm : 0 < m) (hread : t.read m = (.ok bs, t₁))
    (h : ReadsToEnd t₁ (buf ++ bs) res taken t') : ReadsToEnd t buf res (bs ++ taken) t' := by
  obtain ⟨hrest, herrs, hlimit, -⟩ := read_ok hm hread
  have hbefore := beforeFailure_read_ok hread
  refine ⟨?_, herrs ▸ h.errs_suffix, fun bytes hbytes => ?_, fun e he => ?_⟩
  · rw [hrest, h.rest_eq, List.append_assoc]
  · obtain ⟨hbytes, htaken, hprefix⟩ := h.ok bytes hbytes
    refine ⟨?_, ?_, ?_⟩
    · rw [hbytes, List.append_assoc]
    · rw [hrest, hlimit, List.take_length_add_append, ← htaken]
    · rw [hbefore]
      exact (List.prefix_append_right_inj bs).mpr hprefix
  · obtain ⟨htaken, hlen⟩ := h.error e he
    rw [hbefore, htaken, List.length_append]
    refine ⟨rfl, ?_⟩
    omega

/-- After an interruption it goes on as it would have without. -/
theorem of_interrupted (hread : t.read m = (.error e, t₁)) (he : e.kind = .interrupted)
    (h : ReadsToEnd t₁ buf res taken t') : ReadsToEnd t buf res taken t' := by
  obtain ⟨hlimit, hrest, herrs⟩ := read_error hread
  obtain ⟨hbefore, -⟩ := beforeFailure_read_error hread
  rw [if_pos he] at hbefore
  refine ⟨?_, ?_, fun bytes hbytes => ?_, fun e he => ?_⟩
  · rw [← hrest, h.rest_eq]
  · exact h.errs_suffix.trans (herrs ▸ List.suffix_cons e _)
  · rw [← hrest, ← hlimit, hbefore]
    exact h.ok bytes hbytes
  · rw [hbefore, ← hlimit]
    exact h.error e he

/-- A failure ends the loop, with nothing taken by this pass. -/
theorem of_error (hread : t.read m = (.error e, t₁)) (he : e.kind ≠ .interrupted) :
    ReadsToEnd t buf (.error e) [] t₁ := by
  obtain ⟨-, hrest, herrs⟩ := read_error hread
  obtain ⟨hbefore, hpos⟩ := beforeFailure_read_error hread
  rw [if_neg he] at hbefore
  refine ⟨hrest.symm, herrs ▸ List.suffix_cons e _, fun bytes h => ?_, fun e' _ => ?_⟩
  · cases h
  · rw [hbefore]
    exact ⟨rfl, hpos⟩

/-- No more is to come than was. -/
theorem length_add_length_le (h : ReadsToEnd t buf res taken t') :
    t'.inner.rest.length + t'.inner.errs.length ≤
      t.inner.rest.length + t.inner.errs.length := by
  have herrs := h.errs_suffix.length_le
  rw [h.rest_eq, List.length_append]
  omega

/-- With less than the limit the stream has ended, and not in a failure. -/
theorem beforeFailure_of_lt {bytes : List UInt8} (h : ReadsToEnd t buf (.ok bytes) taken t')
    (hlen : taken.length < t.limit) : t.inner.beforeFailure = taken := by
  obtain ⟨-, htaken, hbefore⟩ := h.ok bytes rfl
  -- It is all that was left, so nothing was left behind a failure.
  have hall : taken = t.inner.rest := by
    rw [htaken, List.length_take] at hlen
    rw [htaken, List.take_of_length_le]
    omega
  apply (hbefore.eq_of_length_le ?_).symm
  rw [hall]
  exact t.inner.beforeFailure_isPrefix.length_le

end ReadsToEnd

/-- **`read_to_end` under a limit ends**, on whatever reader. -/
theorem readToEnd_reads (sizes : ℕ → List UInt8 → ℕ) {fuel : ℕ} (t : Take) (buf : List UInt8)
    (hfuel : t.inner.rest.length + t.inner.errs.length < fuel) :
    ∃ res taken t', readToEnd sizes fuel t buf = some (res, t') ∧
      ReadsToEnd t buf res taken t' := by
  induction fuel generalizing t buf with
  | zero => omega
  | succ fuel ih =>
    -- The induction is on the fuel: each pass takes a byte or an error off what is to come.
    have hm : 0 < sizes fuel buf + 1 := Nat.succ_pos _
    rw [readToEnd]
    rcases hread : t.read (sizes fuel buf + 1) with ⟨e | _ | ⟨b, bs⟩, t₁⟩
    · obtain ⟨-, hrest, herrs⟩ := read_error hread
      by_cases he : e.kind = .interrupted
      · have hsteps : t₁.inner.rest.length + t₁.inner.errs.length < fuel := by
          rw [herrs, List.length_cons] at hfuel
          rw [hrest]
          omega
        obtain ⟨res, taken, t', hloop, hreads⟩ := ih t₁ buf hsteps
        simp only [if_pos he]
        exact ⟨res, taken, t', hloop, hreads.of_interrupted hread he⟩
      · simp only [if_neg he]
        exact ⟨.error e, [], t₁, rfl, .of_error hread he⟩
    · exact ⟨.ok buf, [], t₁, rfl, .of_end hm hread⟩
    · obtain ⟨hrest, herrs, -⟩ := read_ok hm hread
      have hsteps : t₁.inner.rest.length + t₁.inner.errs.length < fuel := by
        rw [hrest, List.length_append, List.length_cons] at hfuel
        rw [herrs]
        omega
      obtain ⟨res, taken, t', hloop, hreads⟩ := ih t₁ (buf ++ b :: bs) hsteps
      exact ⟨res, b :: bs ++ taken, t', hloop, hreads.of_more hm hread⟩

end Take

end BasicCli.StdIo
