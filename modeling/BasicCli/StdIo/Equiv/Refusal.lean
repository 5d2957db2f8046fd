import BasicCli.Run.Leaves
import BasicCli.StdIo.Equiv.Writer

/-!
# What buffered writers pass on when the writer below fails

`Appends` says that a computation on a writer appends what it is to append, or fails after a first
part of it.  A `BufWriter` or a `LineWriter` over a writer that takes a first part of what it is
given (`TakesFirst`) does the same: what it has not passed on it keeps, and nothing comes twice.
-/

namespace BasicCli.StdIo

open Run

variable {α σ W : Type}

/-! ### Output -/

/-- Run in `s`, `x` appends `bs` to the output and returns in a state with `post`, or it appends a
first part of `bs` and fails in a state with `inv`. -/
def Appends (out : σ → List α) (x : WriteM σ Unit) (s : σ) (bs : List α) (inv post : σ → Prop) :
    Prop :=
  Leaves x s (fun _ s' => post s' ∧ out s' = out s ++ bs)
    fun _ s' => inv s' ∧ ∃ cs, cs <+: bs ∧ out s' = out s ++ cs

namespace Appends

variable {out : σ → List α} {x y : WriteM σ Unit} {s : σ} {bs cs : List α}
  {inv post mid : σ → Prop}

theorem mono (h : Appends out x s bs inv mid) (hpost : ∀ s', mid s' → post s') :
    Appends out x s bs inv post :=
  Leaves.mono h (fun _ s' hs' => ⟨hpost s' hs'.1, hs'.2⟩) fun _ _ hs' => hs'

theorem pure (h : post s) : Appends out (Pure.pure ()) s [] inv post :=
  leaves_pure ⟨h, (List.append_nil _).symm⟩

/-- **Sequence**: a first part of what the second is to write comes behind all of the first, or a
first part of the first is all. -/
theorem bind (hx : Appends out x s bs inv mid)
    (hy : ∀ s', mid s' → Appends out y s' cs inv post) :
    Appends out (x >>= fun _ => y) s (bs ++ cs) inv post := by
  refine leaves_bind (R := fun _ s' => mid s' ∧ out s' = out s ++ bs) ?_ ?_
  · refine Leaves.mono hx (fun _ _ h => h) ?_
    rintro e s' ⟨hinv, ds, hds, hout⟩
    exact ⟨hinv, ds, hds.trans (List.prefix_append bs cs), hout⟩
  · rintro - s₁ ⟨hmid, hout₁⟩
    refine Leaves.mono (hy s₁ hmid) ?_ ?_
    · rintro - s₂ ⟨hpost, hout₂⟩
      refine ⟨hpost, ?_⟩
      rw [hout₂, hout₁, List.append_assoc]
    · rintro e s₂ ⟨hinv, ds, hds, hout₂⟩
      refine ⟨hinv, bs ++ ds, (List.prefix_append_right_inj bs).mpr hds, ?_⟩
      rw [hout₂, hout₁, List.append_assoc]

theorem bind_nil (hx : Appends out x s [] inv mid)
    (hy : ∀ s', mid s' → Appends out y s' bs inv post) :
    Appends out (x >>= fun _ => y) s bs inv post := by
  have h := bind hx hy
  rwa [List.nil_append] at h

theorem get_bind {f : σ → WriteM σ Unit} (h : Appends out (f s) s bs inv post) :
    Appends out (get >>= f) s bs inv post := h

end Appends

/-! ### `BufWriter` -/

/-- In a state that is `ok`, the writer takes a first part of what it is given, and all of it when
it does not fail. -/
def TakesFirst (W : Type) [Write W] (ok : W → Prop) (out : W → List α) (tag : UInt8 → α) : Prop :=
  ∀ bs w, ok w → ∃ res n w', Write.writeAll bs w = ((res, n), w') ∧ ok w' ∧
    (res = .ok () → n = bs.length) ∧ out w' = out w ++ (bs.take n).map tag

variable {ok : W → Prop} {out : W → List α} {tag : UInt8 → α}

namespace BufWriter

/-- What has room goes to the buffer, which is not refused. -/
theorem writeToBuffer_appends {w : BufWriter W} (hw : w.Ok ok) {bs : List UInt8}
    (hbs : bs.length ≤ w.spareCapacity) :
    Appends (given out tag) (writeToBuffer bs) w (bs.map tag) (Ok ok) (Ok ok) := by
  have hemits : Emits (given out tag) _ w _ _ := writeToBuffer_emits hw hbs
  obtain ⟨w', hrun, hw', hout⟩ := hemits
  exact leaves_of_ok hrun ⟨hw', hout⟩

variable [Write W]

/-- What goes through may be refused behind a first part. -/
theorem innerWriteAll_appends (h : TakesFirst W ok out tag) {w : BufWriter W} (hw : w.Flushed ok)
    (bs : List UInt8) :
    Appends (given out tag) (innerWriteAll bs) w (bs.map tag) (Ok ok) (Flushed ok) := by
  obtain ⟨res, n, inner, hinner, hok, hlen, hout⟩ := h bs w.inner hw.inner
  have hrun : innerWriteAll bs w = (res, { w with inner }) := by rw [innerWriteAll, hinner]
  have hgiven : given out tag { w with inner } = given out tag w ++ (bs.take n).map tag := by
    rw [given, given, hw.buf, hout, List.map_nil, List.append_nil, List.append_nil]
  have hw' : Ok ok { w with inner } := ⟨hok, hw.pos, hw.fits⟩
  rcases res with e | u
  · refine leaves_of_error hrun ⟨hw', (bs.take n).map tag, ?_, hgiven⟩
    exact (List.take_prefix n bs).map tag
  · refine leaves_of_ok hrun ⟨⟨hw', hw.buf⟩, ?_⟩
    rw [hgiven, hlen rfl, List.take_length]

/-- What the writer below does not take stays in the buffer. -/
theorem flushBuf_appends (h : TakesFirst W ok out tag) {w : BufWriter W} (hw : w.Ok ok) :
    Appends (given out tag) flushBuf w [] (Ok ok) (Flushed ok) := by
  obtain ⟨res, n, inner, hinner, hok, hlen, hout⟩ := h w.buf w.inner hw.inner
  have hrun : flushBuf w = (res, { w with buf := w.buf.drop n, inner }) := by
    rw [flushBuf, hinner]
  have hgiven : given out tag { w with buf := w.buf.drop n, inner } = given out tag w := by
    rw [given, given, hout, List.append_assoc, ← List.map_append, List.take_append_drop]
  have hw' : Ok ok { w with buf := w.buf.drop n, inner } := by
    refine ⟨hok, hw.pos, ?_⟩
    have hfits := hw.fits
    show (w.buf.drop n).length ≤ w.capacity
    rw [List.length_drop]
    omega
  rcases res with e | u
  · refine leaves_of_error hrun ⟨hw', [], List.nil_prefix, ?_⟩
    rw [hgiven, List.append_nil]
  · refine leaves_of_ok hrun ⟨⟨hw', ?_⟩, ?_⟩
    · show w.buf.drop n = []
      rw [hlen rfl, List.drop_length]
    · rw [hgiven, List.append_nil]

/-- **`BufWriter`** takes a first part of what it is given, and all of it where it succeeds. -/
theorem writeAll_appends (h : TakesFirst W ok out tag) {w : BufWriter W} (hw : w.Ok ok)
    (bs : List UInt8) : Appends (given out tag) (writeAll bs) w (bs.map tag) (Ok ok) (Ok ok) := by
  rw [writeAll]
  refine Appends.get_bind ?_
  split_ifs with hspare
  · exact writeToBuffer_appends hw (Nat.le_of_lt hspare)
  refine Appends.get_bind ?_
  -- What does not fit finds the buffer empty, when it is passed on as when it is buffered.
  have hrest : ∀ w' : BufWriter W, w'.Ok ok → (bs.length ≥ w'.capacity → w'.buf = []) →
      bs.length ≤ w'.spareCapacity ∨ w'.buf = [] →
      Appends (given out tag) (do
        if bs.length ≥ (← get).capacity then innerWriteAll bs else writeToBuffer bs)
        w' (bs.map tag) (Ok ok) (Ok ok) := by
    intro w' hw' hlong hshort
    refine Appends.get_bind ?_
    split_ifs with hcap
    · exact (innerWriteAll_appends h ⟨hw', hlong hcap⟩ bs).mono fun _ hs => hs.toOk
    · apply writeToBuffer_appends hw'
      rcases hshort with hle | hnil
      · exact hle
      · rw [spareCapacity, hnil]
        exact Nat.le_of_not_ge hcap
  split_ifs with hflush
  · refine Appends.bind_nil (flushBuf_appends h hw) fun w' hw' => ?_
    exact hrest w' hw'.toOk (fun _ => hw'.buf) (.inr hw'.buf)
  · have hskip : Appends (given out tag) (Pure.pure ()) w [] (Ok ok) (· = w) := Appends.pure rfl
    refine Appends.bind_nil hskip ?_
    rintro w' rfl
    refine hrest w' hw (fun hcap => ?_) (.inl (Nat.le_of_not_gt hflush))
    have hfits := hw.fits
    rw [spareCapacity] at hflush
    refine List.length_eq_zero_iff.mp ?_
    omega

theorem writeAll_nil_appends {w : BufWriter W} (hw : w.Flushed ok) :
    Appends (given out tag) (writeAll []) w [] (Ok ok) (Flushed ok) := by
  have hemits : Emits (given out tag) _ w _ _ := writeAll_nil_emits hw
  obtain ⟨w', hrun, hw', hout⟩ := hemits
  exact leaves_of_ok hrun ⟨hw', hout⟩

end BufWriter

/-! ### `LineWriter` -/

namespace LineWriter

open BufWriter (given Ok Flushed)

variable [Write W]

/-- A flush that is refused keeps in the buffer what has not been passed on. -/
theorem flushIfCompletedLine_appends (h : TakesFirst W ok out tag) {w : LineWriter W}
    (hw : w.Ok ok) : Appends (given out tag) flushIfCompletedLine w [] (Ok ok) (Ok ok) := by
  rw [flushIfCompletedLine]
  refine Appends.get_bind ?_
  split_ifs
  · exact (BufWriter.flushBuf_appends h hw).mono fun _ hs => hs.toOk
  · exact Appends.pure hw

/-- With a newline, the buffer is empty before what comes after the last one is written. -/
theorem writeAll_appends_of_memrchr (h : TakesFirst W ok out tag) {w : LineWriter W}
    (hw : w.Ok ok) {bs : List UInt8} {newlineIdx : ℕ} (hbs : memrchr 10 bs = some newlineIdx)
    {post : LineWriter W → Prop}
    (htail : ∀ w' : LineWriter W, w'.Flushed ok →
      Appends (given out tag) (BufWriter.writeAll (bs.drop (newlineIdx + 1))) w'
        ((bs.drop (newlineIdx + 1)).map tag) (Ok ok) post) :
    Appends (given out tag) (writeAll bs) w (bs.map tag) (Ok ok) post := by
  have hsplit : bs.map tag = (bs.take (newlineIdx + 1)).map tag ++
      (bs.drop (newlineIdx + 1)).map tag := by
    rw [← List.map_append, List.take_append_drop]
  rw [writeAll, hbs, hsplit]
  simp only [List.splitAt_eq]
  refine Appends.get_bind ?_
  split_ifs with hbuf
  · -- Nothing is buffered: the lines go past the buffer.
    exact Appends.bind (BufWriter.innerWriteAll_appends h ⟨hw, hbuf⟩ _) htail
  · refine Appends.bind (BufWriter.writeAll_appends h hw _) fun w₁ hw₁ => ?_
    exact Appends.bind_nil (BufWriter.flushBuf_appends h hw₁) htail

/-- **A first part of what is written** is passed on or kept, and nothing else. -/
theorem writeAll_appends (h : TakesFirst W ok out tag) {w : LineWriter W} (hw : w.Ok ok)
    (bs : List UInt8) :
    Appends (given out tag) (writeAll bs) w (bs.map tag) (Ok ok) (Ok ok) := by
  rcases hbs : memrchr 10 bs with _ | newlineIdx
  · rw [writeAll, hbs]
    refine Appends.bind_nil (flushIfCompletedLine_appends h hw) fun w' hw' => ?_
    exact BufWriter.writeAll_appends h hw' bs
  · exact writeAll_appends_of_memrchr h hw hbs fun w' hw' =>
      BufWriter.writeAll_appends h hw'.toOk _

/-- A newline flushes the buffer, where it is taken. -/
theorem writeAll_newline_appends (h : TakesFirst W ok out tag) {w : LineWriter W} (hw : w.Ok ok) :
    Appends (given out tag) (writeAll [10]) w [tag 10] (Ok ok) (Flushed ok) :=
  have hbs : memrchr 10 [10] = some 0 := rfl
  writeAll_appends_of_memrchr h hw hbs fun _ hw' => BufWriter.writeAll_nil_appends hw'

theorem flush_appends (h : TakesFirst W ok out tag) {w : LineWriter W} (hw : w.Ok ok) :
    Appends (given out tag) flush w [] (Ok ok) (Flushed ok) :=
  BufWriter.flushBuf_appends h hw

end LineWriter

end BasicCli.StdIo
