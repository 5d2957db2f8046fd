import BasicCli.StdIo.Reader

/-!
# What readers do to the stream

For a reader, `rest` is what its caller has still to get and `errs` the failures still to come.
`LawfulBufRead` says how `fill_buf` and `consume` move them, `BufReader` is an instance, and
`BufReader.read_ok`, `Take.read_ok` and `Take.readToEnd_spec` say it of the other operations.
-/

namespace BasicCli.StdIo

theorem append_drop_of_isPrefix {α : Type} {bs l : List α} (h : bs <+: l) :
    bs ++ l.drop bs.length = l := by
  obtain ⟨tail, rfl⟩ := h
  rw [List.drop_left]

/-! ### Sources -/

namespace Source

theorem rest_push (bs : List UInt8) (s : Source) : rest (push bs s) = bs ++ rest s := by
  cases bs <;> rfl

theorem errs_push (bs : List UInt8) (s : Source) : errs (push bs s) = errs s := by
  cases bs <;> rfl

/-- A read of the source gives its first bytes, and none only at the end. -/
theorem read_ok {m : ℕ} {s s' : Source} {bs : List UInt8} (h : s.read m = (.ok bs, s')) :
    rest s = bs ++ rest s' ∧ errs s' = errs s ∧ bs.length ≤ m ∧
      (0 < m → bs = [] → rest s = []) := by
  cases s with
  | nil =>
    cases h
    exact ⟨rfl, rfl, Nat.zero_le _, fun _ _ => rfl⟩
  | cons e s =>
    cases e with
    | error e => cases h
    | data b cs =>
      cases h
      refine ⟨?_, errs_push _ _, List.length_take_le _ _, fun hm hnil => ?_⟩
      · rw [rest_push, ← List.append_assoc, List.take_append_drop]
        rfl
      · obtain ⟨m, rfl⟩ := Nat.exists_eq_succ_of_ne_zero (Nat.pos_iff_ne_zero.mp hm)
        cases hnil

/-- A read fails by the event that is first. -/
theorem eq_cons_of_read_error {m : ℕ} {s s' : Source} {e : IoError}
    (h : s.read m = (.error e, s')) : s = .error e :: s' := by
  cases s with
  | nil => cases h
  | cons ev s =>
    cases ev with
    | error e' =>
      cases h
      rfl
    | data b cs => cases h

/-- A read that fails uses the failure up, and takes nothing. -/
theorem read_error {m : ℕ} {s s' : Source} {e : IoError} (h : s.read m = (.error e, s')) :
    rest s' = rest s ∧ errs s = e :: errs s' := by
  rw [eq_cons_of_read_error h]
  exact ⟨rfl, rfl⟩

end Source

/-! ### Lawful buffered readers -/

/-- A buffered reader with what is still to come from it: filling the buffer shows a part of `rest`,
nothing only at its end, and `consume` drops what has been shown. -/
class LawfulBufRead (R : Type) extends BufRead R where
  rest : R → List UInt8
  errs : R → List IoError
  rest_fillBuf : ∀ {r r' res}, fillBuf r = (res, r') → rest r' = rest r
  errs_fillBuf_ok : ∀ {r r' bs}, fillBuf r = (.ok bs, r') → errs r' = errs r
  errs_fillBuf_error : ∀ {r r' e}, fillBuf r = (.error e, r') → errs r = e :: errs r'
  prefix_of_fillBuf : ∀ {r r' bs}, fillBuf r = (.ok bs, r') → bs <+: rest r
  rest_eq_nil_of_fillBuf : ∀ {r r'}, fillBuf r = (.ok [], r') → rest r = []
  rest_consume : ∀ {r r' bs k}, fillBuf r = (.ok bs, r') → k ≤ bs.length →
    rest (consume r' k) = (rest r).drop k
  errs_consume : ∀ r k, errs (consume r k) = errs r

/-- Nothing but interruptions is to come. -/
def OnlyInterrupted (errs : List IoError) : Prop := ∀ e ∈ errs, e.kind = .interrupted

namespace BufReader

/-- What is still to come. -/
def rest (r : BufReader) : List UInt8 := r.buf ++ r.inner.rest

/-- The failures still to come. -/
def errs (r : BufReader) : List IoError := r.inner.errs

/-- The events still to come, of which what is buffered is the first. -/
def events (r : BufReader) : Source := .push r.buf r.inner

theorem rest_events (r : BufReader) : r.events.rest = rest r := Source.rest_push _ _

theorem errs_events (r : BufReader) : r.events.errs = errs r := Source.errs_push _ _

/-- **`fill_buf`** shows what is to come and takes nothing of it; it shows nothing only at the
end. -/
theorem fillBuf_ok {r r' : BufReader} {bs : List UInt8} (h : r.fillBuf = (.ok bs, r')) :
    r'.buf = bs ∧ rest r' = rest r ∧ errs r' = errs r ∧ (bs = [] → rest r = []) := by
  obtain ⟨capacity, buf, inner, hc⟩ := r
  unfold fillBuf at h
  cases buf with
  | cons b buf =>
    cases h
    exact ⟨rfl, rfl, rfl, nofun⟩
  | nil =>
    dsimp only at h
    split at h
    · rename_i bs s hread
      cases h
      obtain ⟨hrest, herrs, -, hnil⟩ := Source.read_ok hread
      exact ⟨rfl, hrest.symm, herrs, hnil hc⟩
    · cases h

/-- A failing `fill_buf` has come to a failure, and is past it. -/
theorem events_fillBuf_error {r r' : BufReader} {e : IoError} (h : r.fillBuf = (.error e, r')) :
    r.events = .error e :: r'.events := by
  obtain ⟨capacity, buf, inner, hc⟩ := r
  unfold fillBuf at h
  cases buf with
  | cons b buf => cases h
  | nil =>
    dsimp only at h
    split at h
    · cases h
    · rename_i e s hread
      cases h
      exact Source.eq_cons_of_read_error hread

/-- A fill that fails uses the failure up, and takes nothing. -/
theorem fillBuf_error {r r' : BufReader} {e : IoError} (h : r.fillBuf = (.error e, r')) :
    rest r' = rest r ∧ errs r = e :: errs r' := by
  rw [← rest_events, ← errs_events, ← rest_events, ← errs_events, events_fillBuf_error h]
  exact ⟨rfl, rfl⟩

theorem prefix_of_fillBuf {r r' : BufReader} {bs : List UInt8} (h : r.fillBuf = (.ok bs, r')) :
    bs <+: rest r := by
  obtain ⟨hbuf, hrest, -⟩ := fillBuf_ok h
  rw [← hrest, rest, hbuf]
  exact List.prefix_append _ _

/-- **`consume`** takes what has been shown. -/
theorem rest_consume {r r' : BufReader} {bs : List UInt8} {k : ℕ} (h : r.fillBuf = (.ok bs, r'))
    (hk : k ≤ bs.length) : rest (r'.consume k) = (rest r).drop k := by
  obtain ⟨hbuf, hrest, -⟩ := fillBuf_ok h
  rw [← hrest, rest, rest, consume, hbuf, List.drop_append_of_le_length hk]

instance : LawfulBufRead BufReader where
  rest := rest
  errs := errs
  rest_fillBuf {r r' res} h := by
    cases res with
    | ok bs => exact (fillBuf_ok h).2.1
    | error e => exact (fillBuf_error h).1
  errs_fillBuf_ok h := (fillBuf_ok h).2.2.1
  errs_fillBuf_error h := (fillBuf_error h).2
  prefix_of_fillBuf := prefix_of_fillBuf
  rest_eq_nil_of_fillBuf h := (fillBuf_ok h).2.2.2 rfl
  rest_consume := rest_consume
  errs_consume _ _ := rfl

/-- A read of the reader gives the first bytes to come, and none only at the end. -/
theorem read_ok {m : ℕ} {r r' : BufReader} {bs : List UInt8} (h : r.read m = (.ok bs, r')) :
    rest r = bs ++ rest r' ∧ errs r' = errs r ∧ bs.length ≤ m ∧
      (0 < m → bs = [] → rest r = []) := by
  unfold read at h
  split_ifs at h with hbypass
  · cases hread : r.inner.read m with
    | mk res s =>
    rw [hread] at h
    cases h
    obtain ⟨hrest, herrs, hlen, hnil⟩ := Source.read_ok hread
    rw [rest, rest, hbypass.1, List.nil_append, List.nil_append]
    exact ⟨hrest, herrs, hlen, hnil⟩
  · cases hfill : r.fillBuf with
    | mk res r₁ =>
    rw [hfill] at h
    cases res with
    | error e => cases h
    | ok cs =>
      cases h
      obtain ⟨-, hrest, herrs, hnil⟩ := fillBuf_ok hfill
      have htake : cs.take m <+: cs := List.take_prefix m cs
      have hprefix : cs.take m <+: rest r := htake.trans (prefix_of_fillBuf hfill)
      refine ⟨?_, herrs, List.length_take_le _ _, fun hm hcs => ?_⟩
      · rw [rest_consume hfill (List.length_take_le' _ _)]
        exact (append_drop_of_isPrefix hprefix).symm
      · rcases List.take_eq_nil_iff.mp hcs with hm' | hcs
        · omega
        · exact hnil hcs

theorem read_error {m : ℕ} {r r' : BufReader} {e : IoError} (h : r.read m = (.error e, r')) :
    rest r' = rest r ∧ errs r = e :: errs r' := by
  unfold read at h
  split_ifs at h with hbypass
  · cases hread : r.inner.read m with
    | mk res s =>
    rw [hread] at h
    cases h
    obtain ⟨hrest, herrs⟩ := Source.read_error hread
    exact ⟨by rw [rest, rest, hrest], herrs⟩
  · cases hfill : r.fillBuf with
    | mk res r₁ =>
    rw [hfill] at h
    cases res with
    | error e => cases h; exact fillBuf_error hfill
    | ok cs => cases h

end BufReader

/-! ### `Take` -/

namespace Take

/-- **A read through `Take`** gives the first bytes to come, no more than are left of the limit, and
none only at the limit or the end. -/
theorem read_ok {m : ℕ} (hm : 0 < m) {t t' : Take} {bs : List UInt8}
    (h : t.read m = (.ok bs, t')) :
    t.inner.rest = bs ++ t'.inner.rest ∧ t'.inner.errs = t.inner.errs ∧
      t.limit = bs.length + t'.limit ∧ (bs = [] → t.limit = 0 ∨ t.inner.rest = []) := by
  unfold read at h
  split_ifs at h with hlimit
  · cases h
    exact ⟨rfl, rfl, (Nat.zero_add _).symm, fun _ => .inl hlimit⟩
  · cases hread : t.inner.read (min m t.limit) with
    | mk res r =>
    rw [hread] at h
    cases res with
    | error e => cases h
    | ok cs =>
      cases h
      obtain ⟨hrest, herrs, hlen, hnil⟩ := BufReader.read_ok hread
      refine ⟨hrest, herrs, ?_, fun hcs => .inr (hnil (by omega) hcs)⟩
      dsimp only
      omega

theorem read_error {m : ℕ} {t t' : Take} {e : IoError} (h : t.read m = (.error e, t')) :
    t'.limit = t.limit ∧ t'.inner.rest = t.inner.rest ∧ t.inner.errs = e :: t'.inner.errs := by
  unfold read at h
  split_ifs at h with hlimit
  · cases h
  · cases hread : t.inner.read (min m t.limit) with
    | mk res r =>
    rw [hread] at h
    cases res with
    | error e => cases h; exact ⟨rfl, BufReader.read_error hread⟩
    | ok cs => cases h

/-- **`fill_buf` of `Take`** shows no more than is left of the limit. -/
theorem fillBuf_ok {t t' : Take} {bs : List UInt8} (h : t.fillBuf = (.ok bs, t')) :
    bs.length ≤ t.limit ∧ t'.inner.errs = t.inner.errs ∧
      (bs = [] → t.limit = 0 ∨ t.inner.rest = []) ∧
      t.inner.rest = bs ++ (t'.inner.consume bs.length).rest := by
  unfold fillBuf at h
  split_ifs at h with hlimit
  · cases h
    exact ⟨Nat.zero_le _, rfl, fun _ => .inl hlimit, rfl⟩
  · cases hfill : t.inner.fillBuf with
    | mk res r =>
    rw [hfill] at h
    cases res with
    | error e => cases h
    | ok cs =>
      cases h
      obtain ⟨-, -, herrs, hnil⟩ := BufReader.fillBuf_ok hfill
      refine ⟨List.length_take_le _ _, herrs, fun hcs => ?_, ?_⟩
      · rcases List.take_eq_nil_iff.mp hcs with hl | hcs
        · exact .inl hl
        · exact .inr (hnil hcs)
      · have htake : cs.take t.limit <+: cs := List.take_prefix t.limit cs
        dsimp only
        rw [BufReader.rest_consume hfill (List.length_take_le' _ _)]
        exact (append_drop_of_isPrefix (htake.trans (BufReader.prefix_of_fillBuf hfill))).symm

/-- A fill of `Take` fails as the reader does. -/
theorem inner_fillBuf_error {t t' : Take} {e : IoError} (h : t.fillBuf = (.error e, t')) :
    t.inner.fillBuf = (.error e, t'.inner) := by
  unfold fillBuf at h
  split_ifs at h with hlimit
  · cases h
  · cases hfill : t.inner.fillBuf with
    | mk res r =>
    rw [hfill] at h
    cases res with
    | error e =>
      cases h
      rfl
    | ok cs => cases h

theorem fillBuf_error {t t' : Take} {e : IoError} (h : t.fillBuf = (.error e, t')) :
    t'.inner.rest = t.inner.rest ∧ t.inner.errs = e :: t'.inner.errs :=
  BufReader.fillBuf_error (inner_fillBuf_error h)

/-- **`read_to_end` under a limit** appends the stream up to the limit, if nothing but interruptions
happens. -/
theorem readToEnd_spec (sizes : ℕ → List UInt8 → ℕ) {fuel : ℕ} {t : Take} (buf : List UInt8)
    (hcalm : OnlyInterrupted t.inner.errs)
    (hfuel : t.inner.rest.length + t.inner.errs.length < fuel) :
    ∃ t', readToEnd sizes fuel t buf = some (.ok (buf ++ t.inner.rest.take t.limit), t') ∧
      t'.inner.rest = t.inner.rest.drop t.limit ∧ t'.inner.errs <:+ t.inner.errs := by
  induction fuel generalizing t buf with
  | zero => omega
  | succ fuel ih =>
    unfold readToEnd
    cases hread : t.read (sizes fuel buf + 1) with
    | mk res t₁ =>
    cases res with
    | error e =>
      obtain ⟨hlimit, hrest, herrs⟩ := read_error hread
      have hcalm₁ : OnlyInterrupted t₁.inner.errs :=
        fun e' h => hcalm e' (herrs ▸ List.mem_cons_of_mem e h)
      obtain ⟨t', hloop, hrest', hsuffix⟩ := ih (t := t₁) buf hcalm₁ (by
        rw [herrs, List.length_cons] at hfuel
        rw [hrest]
        omega)
      rw [hlimit, hrest] at hloop hrest'
      simp only
      rw [if_pos (hcalm e (herrs ▸ List.mem_cons_self ..)), hloop]
      exact ⟨t', rfl, hrest', hsuffix.trans (herrs ▸ List.suffix_cons e _)⟩
    | ok bs =>
      obtain ⟨hrest, herrs, hlimit, hnil⟩ := read_ok (Nat.succ_pos _) hread
      cases bs with
      | nil =>
        -- A read of at least one byte gives none at the limit and at the end of the stream only.
        have htake : t.inner.rest.take t.limit = [] := List.take_eq_nil_iff.mpr (hnil rfl)
        have hdrop : t.inner.rest.drop t.limit = t.inner.rest := by
          have h := List.take_append_drop t.limit t.inner.rest
          rwa [htake, List.nil_append] at h
        rw [htake, hdrop, List.append_nil]
        exact ⟨t₁, rfl, hrest.symm, herrs ▸ List.suffix_refl _⟩
      | cons b bs =>
        obtain ⟨t', hloop, hrest', hsuffix⟩ := ih (t := t₁) (buf ++ b :: bs) (herrs ▸ hcalm) (by
          rw [hrest, List.length_append, List.length_cons] at hfuel
          rw [herrs]
          omega)
        simp only
        rw [hloop, hrest, hlimit, List.take_length_add_append, List.append_assoc]
        refine ⟨t', rfl, ?_, herrs ▸ hsuffix⟩
        rw [hrest', List.drop_length_add_append]

end Take

end BasicCli.StdIo
