import BasicCli.File.Basic
import BasicCli.StdIo.Equiv.Reader
import BasicCli.StdIo.Lines

/-!
# Correctness of `read_until`

`read_until` takes a line or what comes before a failure (`readUntilLoop_reads`).  On a reader that
is interrupted now and then but does not otherwise fail, it appends the first line of what is to
come, however that is cut into buffers (`readUntil_spec`).
-/

namespace BasicCli

open StdIo LawfulBufRead Memchr

variable {R : Type} [LawfulBufRead R]

/-- The steps that a reader has left: each fill either meets a failure or shows a byte that is
consumed. -/
def stepsLeft (r : R) : ℕ := (rest r).length + (errs r).length

section

variable [Memchr]

/-! ### `memchr` -/

/-- The first place is found. -/
theorem memchr_append_cons {delim : UInt8} {l : List UInt8} (h : delim ∉ l) (rest : List UInt8) :
    memchr delim (l ++ delim :: rest) = some l.length := by
  rw [memchr_eq_some_iff, List.take_left]
  exact ⟨List.getElem?_append_right (Nat.le_refl _) |>.trans (by simp), h⟩

/-- **`memchr` finds nothing** iff there is nothing to find. -/
theorem memchr_eq_none_iff {delim : UInt8} {l : List UInt8} :
    memchr delim l = none ↔ delim ∉ l := by
  constructor
  · intro hnone hmem
    obtain ⟨l, rest, rfl, hl⟩ := List.eq_append_cons_of_mem hmem
    rw [memchr_append_cons hl] at hnone
    cases hnone
  · intro h
    rw [Option.eq_none_iff_forall_ne_some]
    intro i hi
    exact h (List.mem_of_getElem? (memchr_eq_some_iff.mp hi).1)

/-- The end of the first line is in what the buffer shows, where `memchr` finds it, or the first
line goes on behind that. -/
theorem memchr_cases (delim : UInt8) (available tail : List UInt8) :
    (∃ i, memchr delim available = some i ∧ i < available.length ∧
      upTo delim (available ++ tail) = available.take (i + 1)) ∨
    (memchr delim available = none ∧
      upTo delim (available ++ tail) = available ++ upTo delim tail) := by
  by_cases h : delim ∈ available
  · obtain ⟨l, rest, rfl, hl⟩ := List.eq_append_cons_of_mem h
    refine .inl ⟨l.length, memchr_append_cons hl rest, ?_, ?_⟩
    · rw [List.length_append, List.length_cons]
      omega
    · rw [List.append_assoc, List.cons_append, upTo_append_cons hl, List.take_length_add_append]
      rfl
  · exact .inr ⟨memchr_eq_none_iff.mpr h, upTo_append_of_notMem h tail⟩

/-! ### One pass of the loop -/

section

variable {S : Type} [BufRead S] {delim : UInt8} {fuel : ℕ} {r r₁ : S} {buf available : List UInt8}
  {read : ℕ}

/-- An interruption is tried again. -/
theorem readUntilLoop_of_interrupted {e : IoError} (hfill : BufRead.fillBuf r = (.error e, r₁))
    (he : e.kind = .interrupted) :
    readUntilLoop delim (fuel + 1) r buf read = readUntilLoop delim fuel r₁ buf read := by
  rw [readUntilLoop, hfill]
  simp only
  rw [if_pos he]

/-- A failure ends the loop; the bytes stay in the list. -/
theorem readUntilLoop_of_error {e : IoError} (hfill : BufRead.fillBuf r = (.error e, r₁))
    (he : e.kind ≠ .interrupted) :
    readUntilLoop delim (fuel + 1) r buf read = some (.error e, buf, r₁) := by
  rw [readUntilLoop, hfill]
  simp only
  rw [if_neg he]

/-- The delimiter ends the loop, and what is behind it is not consumed. -/
theorem readUntilLoop_of_found {i : ℕ} (hfill : BufRead.fillBuf r = (.ok available, r₁))
    (hmem : memchr delim available = some i) :
    readUntilLoop delim (fuel + 1) r buf read =
      some (.ok (read + (i + 1)), buf ++ available.take (i + 1), BufRead.consume r₁ (i + 1)) := by
  rw [readUntilLoop, hfill]
  simp only [hmem]
  rw [if_pos (.inl trivial)]

/-- An empty fill ends the loop. -/
theorem readUntilLoop_of_eof (hfill : BufRead.fillBuf r = (.ok [], r₁)) :
    readUntilLoop delim (fuel + 1) r buf read = some (.ok read, buf, BufRead.consume r₁ 0) := by
  have hmem : memchr delim [] = none := memchr_eq_none_iff.mpr List.not_mem_nil
  rw [readUntilLoop, hfill]
  simp [hmem]

/-- A fill without the delimiter is taken whole, and the loop goes on. -/
theorem readUntilLoop_of_more (hfill : BufRead.fillBuf r = (.ok available, r₁))
    (hne : available ≠ []) (hmem : memchr delim available = none) :
    readUntilLoop delim (fuel + 1) r buf read =
      readUntilLoop delim fuel (BufRead.consume r₁ available.length) (buf ++ available)
        (read + available.length) := by
  rw [readUntilLoop, hfill]
  simp only [hmem]
  rw [if_neg (by simp [hne])]

end

end

/-! ### The loop -/

/-- What `read_until` makes of a reader that may fail: it ends at the delimiter, at the end of the
stream, or at a failure that is no interruption, and has taken the bytes before that. -/
structure ReadsUntil (delim : UInt8) (r : R) (read : ℕ) (ret : Except IoError ℕ)
    (bytes : List UInt8) (r' : R) : Prop where
  rest_eq : rest r = bytes ++ rest r'
  errs_suffix : errs r' <:+ errs r
  ok : ∀ n, ret = .ok n → n = read + bytes.length ∧ bytes = upTo delim (rest r)
  error : ∀ e, ret = .error e → delim ∉ bytes ∧ e ∈ errs r ∧ e.kind ≠ .interrupted

namespace ReadsUntil

variable {delim : UInt8} {r r' : R} {read : ℕ} {ret : Except IoError ℕ} {bytes : List UInt8}

/-- No more steps are left than were. -/
theorem stepsLeft_le (h : ReadsUntil delim r read ret bytes r') : stepsLeft r' ≤ stepsLeft r := by
  have herrs := h.errs_suffix.length_le
  unfold stepsLeft
  rw [h.rest_eq, List.length_append]
  omega

/-- The delimiter is the last byte that is taken, if it is taken. -/
theorem notMem_dropLast (h : ReadsUntil delim r read ret bytes r') : delim ∉ bytes.dropLast := by
  cases ret with
  | ok n =>
    rw [(h.ok n rfl).2]
    exact notMem_dropLast_upTo delim (rest r)
  | error e => exact fun hmem => (h.error e rfl).1 (List.dropLast_subset bytes hmem)

/-! The passes of the loop. -/

variable {r₁ : R} {e : IoError} {available : List UInt8}

/-- A failure ends it, with nothing taken by this pass. -/
theorem of_error (hfill : BufRead.fillBuf r = (.error e, r₁)) (he : e.kind ≠ .interrupted) :
    ReadsUntil delim r read (.error e) [] r₁ where
  rest_eq := (rest_fillBuf hfill).symm
  errs_suffix := errs_fillBuf_error hfill ▸ List.suffix_cons e _
  ok := by simp
  error := by
    rintro e' ⟨⟩
    exact ⟨List.not_mem_nil, errs_fillBuf_error hfill ▸ List.mem_cons_self .., he⟩

/-- After an interruption it goes on as it would have without. -/
theorem of_interrupted (hfill : BufRead.fillBuf r = (.error e, r₁))
    (h : ReadsUntil delim r₁ read ret bytes r') : ReadsUntil delim r read ret bytes r' where
  rest_eq := by rw [← rest_fillBuf hfill, h.rest_eq]
  errs_suffix := h.errs_suffix.trans (errs_fillBuf_error hfill ▸ List.suffix_cons e _)
  ok n hn := by
    rw [← rest_fillBuf hfill]
    exact h.ok n hn
  error e' he' := by
    obtain ⟨hdelim, hmem, hkind⟩ := h.error e' he'
    exact ⟨hdelim, errs_fillBuf_error hfill ▸ List.mem_cons_of_mem e hmem, hkind⟩

theorem errs_consume_fillBuf (hfill : BufRead.fillBuf r = (.ok available, r₁)) (k : ℕ) :
    errs (BufRead.consume r₁ k) = errs r := by
  rw [errs_consume, errs_fillBuf_ok hfill]

/-- The line ends in what the buffer shows. -/
theorem of_found {i : ℕ} (hfill : BufRead.fillBuf r = (.ok available, r₁))
    (hi : i < available.length) (hupTo : upTo delim (rest r) = available.take (i + 1)) :
    ReadsUntil delim r read (.ok (read + (i + 1))) (available.take (i + 1))
      (BufRead.consume r₁ (i + 1)) where
  rest_eq := by
    obtain ⟨tail, htail⟩ := prefix_of_fillBuf hfill
    rw [rest_consume hfill hi, ← htail, List.drop_append_of_le_length hi, ← List.append_assoc,
      List.take_append_drop]
  errs_suffix := errs_consume_fillBuf hfill _ ▸ List.suffix_refl _
  ok := by
    rintro n ⟨⟩
    rw [List.length_take_of_le hi]
    exact ⟨rfl, hupTo.symm⟩
  error := by simp

/-- The stream has ended. -/
theorem of_eof (hfill : BufRead.fillBuf r = (.ok [], r₁)) :
    ReadsUntil delim r read (.ok read) [] (BufRead.consume r₁ 0) where
  rest_eq := by
    rw [rest_consume (k := 0) hfill (Nat.le_refl _)]
    rfl
  errs_suffix := errs_consume_fillBuf hfill _ ▸ List.suffix_refl _
  ok := by
    rintro n ⟨⟩
    rw [rest_eq_nil_of_fillBuf hfill]
    exact ⟨rfl, rfl⟩
  error := by simp

/-- What is shown is what comes first. -/
theorem rest_eq_append (hfill : BufRead.fillBuf r = (.ok available, r₁)) :
    rest r = available ++ rest (BufRead.consume r₁ available.length) := by
  obtain ⟨tail, htail⟩ := prefix_of_fillBuf hfill
  rw [rest_consume hfill (Nat.le_refl _), ← htail, List.drop_left]

/-- The line goes on in the next buffer. -/
theorem of_more (hfill : BufRead.fillBuf r = (.ok available, r₁)) (hdelim : delim ∉ available)
    (h : ReadsUntil delim (BufRead.consume r₁ available.length) (read + available.length) ret bytes
      r') :
    ReadsUntil delim r read ret (available ++ bytes) r' where
  rest_eq := by rw [rest_eq_append hfill, h.rest_eq, List.append_assoc]
  errs_suffix := errs_consume_fillBuf hfill _ ▸ h.errs_suffix
  ok n hn := by
    obtain ⟨hlen, hupTo⟩ := h.ok n hn
    rw [rest_eq_append hfill, upTo_append_of_notMem hdelim, ← hupTo, List.length_append]
    exact ⟨by omega, rfl⟩
  error e he := by
    obtain ⟨hdelim', hmem, hkind⟩ := h.error e he
    exact ⟨by simp [hdelim, hdelim'], errs_consume_fillBuf hfill _ ▸ hmem, hkind⟩

end ReadsUntil

variable [Memchr]

/-- **`read_until` ends**, on whatever reader. -/
theorem readUntilLoop_reads (delim : UInt8) {fuel : ℕ} {r : R} (buf : List UInt8) (read : ℕ)
    (hfuel : stepsLeft r < fuel) :
    ∃ ret bytes r', readUntilLoop delim fuel r buf read = some (ret, buf ++ bytes, r') ∧
      ReadsUntil delim r read ret bytes r' := by
  induction fuel generalizing r buf read with
  | zero => omega
  | succ fuel ih =>
    obtain ⟨⟨res, r₁⟩, hfill⟩ : ∃ p, BufRead.fillBuf r = p := ⟨_, rfl⟩
    cases res with
    | error e =>
      -- An interruption is one failure less to come.
      by_cases he : e.kind = .interrupted
      · have hsteps : stepsLeft r₁ < fuel := by
          unfold stepsLeft at hfuel ⊢
          rw [errs_fillBuf_error hfill, List.length_cons] at hfuel
          rw [rest_fillBuf hfill]
          omega
        obtain ⟨ret, bytes, r', hloop, hreads⟩ := ih buf read hsteps
        rw [readUntilLoop_of_interrupted hfill he, hloop]
        exact ⟨ret, bytes, r', rfl, hreads.of_interrupted hfill⟩
      · rw [readUntilLoop_of_error hfill he]
        exact ⟨.error e, [], r₁, by rw [List.append_nil], .of_error hfill he⟩
    | ok available =>
      obtain ⟨tail, htail⟩ := prefix_of_fillBuf hfill
      rcases memchr_cases delim available tail with ⟨i, hmem, hi, hupTo⟩ | ⟨hmem, -⟩
      · rw [htail] at hupTo
        exact ⟨_, _, _, readUntilLoop_of_found hfill hmem, .of_found hfill hi hupTo⟩
      · by_cases hnil : available = []
        · subst hnil
          rw [readUntilLoop_of_eof hfill]
          exact ⟨.ok read, [], _, by rw [List.append_nil], .of_eof hfill⟩
        · -- Something has been consumed.
          have hsteps : stepsLeft (BufRead.consume r₁ available.length) < fuel := by
            have hpos : 0 < available.length := List.length_pos_iff.mpr hnil
            unfold stepsLeft at hfuel ⊢
            rw [ReadsUntil.rest_eq_append hfill, List.length_append] at hfuel
            rw [ReadsUntil.errs_consume_fillBuf hfill]
            omega
          obtain ⟨ret, bytes, r', hloop, hreads⟩ :=
            ih (buf ++ available) (read + available.length) hsteps
          rw [readUntilLoop_of_more hfill hnil hmem, hloop, List.append_assoc]
          exact ⟨ret, available ++ bytes, r', rfl,
            hreads.of_more hfill (memchr_eq_none_iff.mp hmem)⟩

/-- **Correctness of `read_until`**: it appends the first line of what is to come, reports its
length and leaves what is behind it. -/
theorem readUntil_spec (delim : UInt8) {fuel : ℕ} {r : R} (buf : List UInt8)
    (hcalm : OnlyInterrupted (errs r)) (hfuel : stepsLeft r < fuel) :
    ∃ r', readUntil fuel r delim buf =
        some (.ok (upTo delim (rest r)).length, buf ++ upTo delim (rest r), r') ∧
      rest r' = (rest r).drop (upTo delim (rest r)).length ∧ errs r' <:+ errs r := by
  obtain ⟨ret, bytes, r', hloop, hreads⟩ := readUntilLoop_reads delim buf 0 hfuel
  cases ret with
  | error e =>
    obtain ⟨-, hmem, hkind⟩ := hreads.error e rfl
    exact absurd (hcalm e hmem) hkind
  | ok n =>
    obtain ⟨rfl, hbytes⟩ := hreads.ok n rfl
    refine ⟨r', ?_, ?_, hreads.errs_suffix⟩
    · rw [readUntil, hloop, Nat.zero_add, ← hbytes]
    · rw [← hbytes, hreads.rest_eq, List.drop_left]

/-- The search of a list. -/
instance Memchr.idxOf : Memchr where
  memchr needle haystack := haystack.idxOf? needle
  memchr_eq_some_iff {needle haystack i} := by
    rw [List.idxOf?_eq_some_iff]
    grind [List.mem_take_iff_getElem]

end BasicCli
