import BasicCli.StdIo.Writer

/-!
# What buffered writers pass on

`Emits` says what a computation on a writer appends to all that the writer has been given, passed on
or not.  A `BufWriter` or a `LineWriter` over a writer that takes what it is given (`Steady`)
appends just what is written to it, and after a flush or a newline nothing is left in the buffer.
-/

namespace BasicCli.StdIo

variable {α σ W : Type}

/-! ### Output -/

/-- Run in `s`, `x` returns and appends `bs` to the output, in a state with `post`. -/
def Emits (out : σ → List α) (x : WriteM σ Unit) (s : σ) (bs : List α) (post : σ → Prop) : Prop :=
  ∃ s', x s = (.ok (), s') ∧ post s' ∧ out s' = out s ++ bs

namespace Emits

variable {out : σ → List α} {x y : WriteM σ Unit} {s : σ} {bs cs : List α} {post mid : σ → Prop}

theorem mono (h : Emits out x s bs mid) (hpost : ∀ s', mid s' → post s') :
    Emits out x s bs post := by
  obtain ⟨s', hx, hmid, hout⟩ := h
  exact ⟨s', hx, hpost s' hmid, hout⟩

theorem pure (h : post s) : Emits out (Pure.pure ()) s [] post :=
  ⟨s, rfl, h, (List.append_nil _).symm⟩

/-- **Sequence**: what the second writes comes behind what the first has. -/
theorem bind (hx : Emits out x s bs mid) (hy : ∀ s', mid s' → Emits out y s' cs post) :
    Emits out (x >>= fun _ => y) s (bs ++ cs) post := by
  obtain ⟨s₁, hx, hmid, hout₁⟩ := hx
  obtain ⟨s₂, hy, hpost, hout₂⟩ := hy s₁ hmid
  refine ⟨s₂, ?_, hpost, ?_⟩
  · show (ExceptT.bindCont (fun _ => y) (x s).1 : StateM σ _) (x s).2 = _
    rw [hx]
    exact hy
  · rw [hout₂, hout₁, List.append_assoc]

/-- A first part that writes nothing. -/
theorem bind_nil (hx : Emits out x s [] mid) (hy : ∀ s', mid s' → Emits out y s' bs post) :
    Emits out (x >>= fun _ => y) s bs post := by
  have h := bind hx hy
  rwa [List.nil_append] at h

theorem get_bind {f : σ → WriteM σ Unit} (h : Emits out (f s) s bs post) :
    Emits out (get >>= f) s bs post := h

/-- Several writes one after the other. -/
theorem forM {β : Type} {f : β → WriteM σ Unit} {g : β → List α} {as : List β}
    (hf : ∀ a ∈ as, ∀ s, post s → Emits out (f a) s (g a) post) (hs : post s) :
    Emits out (as.forM f) s (as.flatMap g) post := by
  induction as generalizing s with
  | nil => exact pure hs
  | cons a as ih =>
    rw [List.flatMap_cons]
    refine bind (hf a List.mem_cons_self s hs) fun s' hs' => ?_
    exact ih (fun a' ha' => hf a' (List.mem_cons_of_mem _ ha')) hs'

end Emits

/-! ### `BufWriter` -/

/-- In a state that is `ok`, the writer takes what it is given, which `out` shows. -/
def Steady (W : Type) [Write W] (ok : W → Prop) (out : W → List α) (tag : UInt8 → α) : Prop :=
  ∀ bs w, ok w → ∃ w', Write.writeAll bs w = ((.ok (), bs.length), w') ∧ ok w' ∧
    out w' = out w ++ bs.map tag

variable {ok : W → Prop} {out : W → List α} {tag : UInt8 → α}

namespace BufWriter

/-- What a `BufWriter` has been given: what has been passed on and what has not. -/
def given (out : W → List α) (tag : UInt8 → α) (w : BufWriter W) : List α :=
  out w.inner ++ w.buf.map tag

/-- The buffer is not overfull, and the writer below is in order. -/
structure Ok (ok : W → Prop) (w : BufWriter W) : Prop where
  inner : ok w.inner
  pos : 0 < w.capacity
  fits : w.buf.length ≤ w.capacity

/-- Nothing is left in the buffer. -/
structure Flushed (ok : W → Prop) (w : BufWriter W) : Prop extends Ok ok w where
  buf : w.buf = []

/-- What has room goes to the buffer. -/
theorem writeToBuffer_emits {w : BufWriter W} (hw : w.Ok ok) {bs : List UInt8}
    (hbs : bs.length ≤ w.spareCapacity) :
    Emits (given out tag) (writeToBuffer bs) w (bs.map tag) (Ok ok) := by
  refine ⟨{ w with buf := w.buf ++ bs }, rfl, ⟨hw.inner, hw.pos, ?_⟩, ?_⟩
  · have hfits := hw.fits
    show (w.buf ++ bs).length ≤ w.capacity
    rw [List.length_append]
    rw [spareCapacity] at hbs
    omega
  · rw [given, given, List.map_append, List.append_assoc]

variable [Write W]

/-- What has none goes through, where the buffer is empty. -/
theorem innerWriteAll_emits (h : Steady W ok out tag) {w : BufWriter W} (hw : w.Flushed ok)
    (bs : List UInt8) :
    Emits (given out tag) (innerWriteAll bs) w (bs.map tag) (Flushed ok) := by
  obtain ⟨inner, hinner, hok, hout⟩ := h bs w.inner hw.inner
  refine ⟨{ w with inner }, ?_, ⟨⟨hok, hw.pos, hw.fits⟩, hw.buf⟩, ?_⟩
  · rw [innerWriteAll, hinner]
  · rw [given, given, hw.buf, hout, List.map_nil, List.append_nil, List.append_nil]

/-- **A flush** passes on what the buffer holds, which has been given already. -/
theorem flushBuf_emits (h : Steady W ok out tag) {w : BufWriter W} (hw : w.Ok ok) :
    Emits (given out tag) flushBuf w [] (Flushed ok) := by
  obtain ⟨inner, hinner, hok, hout⟩ := h w.buf w.inner hw.inner
  refine ⟨{ w with buf := [], inner }, ?_, ⟨⟨hok, hw.pos, Nat.zero_le _⟩, rfl⟩, ?_⟩
  · rw [flushBuf, hinner]
    simp only [List.drop_length]
  · rw [given, given, hout, List.map_nil]

/-- **`BufWriter`** takes all that it is given, by one of three ways. -/
theorem writeAll_emits (h : Steady W ok out tag) {w : BufWriter W} (hw : w.Ok ok)
    (bs : List UInt8) : Emits (given out tag) (writeAll bs) w (bs.map tag) (Ok ok) := by
  rw [writeAll]
  refine Emits.get_bind ?_
  split_ifs with hspare
  · exact writeToBuffer_emits hw (Nat.le_of_lt hspare)
  refine Emits.get_bind ?_
  -- What does not fit finds the buffer empty, when it is passed on as when it is buffered.
  have hrest : ∀ w' : BufWriter W, w'.Ok ok → (bs.length ≥ w'.capacity → w'.buf = []) →
      bs.length ≤ w'.spareCapacity ∨ w'.buf = [] →
      Emits (given out tag) (do
        if bs.length ≥ (← get).capacity then innerWriteAll bs else writeToBuffer bs)
        w' (bs.map tag) (Ok ok) := by
    intro w' hw' hlong hshort
    refine Emits.get_bind ?_
    split_ifs with hcap
    · exact (innerWriteAll_emits h ⟨hw', hlong hcap⟩ bs).mono fun _ hs => hs.toOk
    · apply writeToBuffer_emits hw'
      rcases hshort with hle | hnil
      · exact hle
      · rw [spareCapacity, hnil]
        exact Nat.le_of_not_ge hcap
  split_ifs with hflush
  · refine Emits.bind_nil (flushBuf_emits h hw) fun w' hw' => ?_
    exact hrest w' hw'.toOk (fun _ => hw'.buf) (.inr hw'.buf)
  · have hskip : Emits (given out tag) (Pure.pure ()) w [] (· = w) := Emits.pure rfl
    refine Emits.bind_nil hskip ?_
    rintro w' rfl
    refine hrest w' hw (fun hcap => ?_) (.inl (Nat.le_of_not_gt hflush))
    have hfits := hw.fits
    rw [spareCapacity] at hflush
    refine List.length_eq_zero_iff.mp ?_
    omega

theorem writeAll_nil_emits {w : BufWriter W} (hw : w.Flushed ok) :
    Emits (given out tag) (writeAll []) w [] (Flushed ok) := by
  -- The buffer is empty and has room, so nothing is passed on.
  have hspare : ([] : List UInt8).length < w.spareCapacity := by
    rw [spareCapacity, hw.buf]
    exact hw.pos
  rw [writeAll]
  refine Emits.get_bind ?_
  rw [if_pos hspare]
  refine ⟨{ w with buf := w.buf ++ [] }, rfl, ⟨⟨hw.inner, hw.pos, ?_⟩, ?_⟩, ?_⟩
  · simpa using hw.fits
  · simpa using hw.buf
  · simp [given]

end BufWriter

/-! ### `LineWriter` -/

namespace LineWriter

open BufWriter (given Ok Flushed)

variable [Write W]

/-- A line that is complete in the buffer is passed on. -/
theorem flushIfCompletedLine_emits (h : Steady W ok out tag) {w : LineWriter W} (hw : w.Ok ok) :
    Emits (given out tag) flushIfCompletedLine w [] (Ok ok) := by
  rw [flushIfCompletedLine]
  refine Emits.get_bind ?_
  split_ifs
  · exact (BufWriter.flushBuf_emits h hw).mono fun _ hs => hs.toOk
  · exact Emits.pure hw

/-- With a newline, the buffer is empty before what comes after the last one is written. -/
theorem writeAll_of_memrchr (h : Steady W ok out tag) {w : LineWriter W} (hw : w.Ok ok)
    {bs : List UInt8} {newlineIdx : ℕ} (hbs : memrchr 10 bs = some newlineIdx)
    {post : LineWriter W → Prop}
    (htail : ∀ w' : LineWriter W, w'.Flushed ok →
      Emits (given out tag) (BufWriter.writeAll (bs.drop (newlineIdx + 1))) w'
        ((bs.drop (newlineIdx + 1)).map tag) post) :
    Emits (given out tag) (writeAll bs) w (bs.map tag) post := by
  have hsplit : bs.map tag = (bs.take (newlineIdx + 1)).map tag ++
      (bs.drop (newlineIdx + 1)).map tag := by
    rw [← List.map_append, List.take_append_drop]
  rw [writeAll, hbs, hsplit]
  simp only [List.splitAt_eq]
  refine Emits.get_bind ?_
  split_ifs with hbuf
  · -- Nothing is buffered: the lines go past the buffer.
    exact Emits.bind (BufWriter.innerWriteAll_emits h ⟨hw, hbuf⟩ _) htail
  · refine Emits.bind (BufWriter.writeAll_emits h hw _) fun w₁ hw₁ => ?_
    exact Emits.bind_nil (BufWriter.flushBuf_emits h hw₁) htail

/-- **`LineWriter`** takes all that it is given: the lines, and what is behind the last newline. -/
theorem writeAll_emits (h : Steady W ok out tag) {w : LineWriter W} (hw : w.Ok ok)
    (bs : List UInt8) : Emits (given out tag) (writeAll bs) w (bs.map tag) (Ok ok) := by
  rcases hbs : memrchr 10 bs with _ | newlineIdx
  · rw [writeAll, hbs]
    refine Emits.bind_nil (flushIfCompletedLine_emits h hw) fun w' hw' => ?_
    exact BufWriter.writeAll_emits h hw' bs
  · exact writeAll_of_memrchr h hw hbs fun w' hw' => BufWriter.writeAll_emits h hw'.toOk _

/-- **A newline empties the buffer.** -/
theorem writeAll_newline_emits (h : Steady W ok out tag) {w : LineWriter W} (hw : w.Ok ok) :
    Emits (given out tag) (writeAll [10]) w [tag 10] (Flushed ok) :=
  have hbs : memrchr 10 [10] = some 0 := rfl
  writeAll_of_memrchr h hw hbs fun _ hw' => BufWriter.writeAll_nil_emits hw'

theorem flush_emits (h : Steady W ok out tag) {w : LineWriter W} (hw : w.Ok ok) :
    Emits (given out tag) flush w [] (Flushed ok) :=
  BufWriter.flushBuf_emits h hw

end LineWriter

end BasicCli.StdIo
