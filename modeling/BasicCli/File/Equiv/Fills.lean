import BasicCli.File.Equiv.ReadUntil

/-!
# What `read_until` takes, and how often it fills

* `readUntil_takes`: the bytes that `read_until` takes are told by the stream alone, and the loop
  meets no more than one empty fill.

The empty fills are counted by the reader: `Counted` is a reader that does so.
-/

namespace BasicCli

open StdIo LawfulBufRead Memchr

/-- A reader with the number of times that it has shown nothing. -/
structure Counted (R : Type) where
  inner : R
  emptyFills : ℕ

instance {R : Type} [BufRead R] : BufRead (Counted R) where
  fillBuf r :=
    match BufRead.fillBuf r.inner with
    | (.ok available, inner) =>
      (.ok available, ⟨inner, if available = [] then r.emptyFills + 1 else r.emptyFills⟩)
    | (.error e, inner) => (.error e, ⟨inner, r.emptyFills⟩)
  consume r k := ⟨BufRead.consume r.inner k, r.emptyFills⟩

/-- `bytes` is the shortest prefix of the stream that ends with the delimiter, or the stream if the
delimiter does not occur in it. -/
structure TakesUpTo (delim : UInt8) (stream bytes : List UInt8) : Prop where
  isPrefix : bytes <+: stream
  ends : delim ∈ stream → bytes.getLast? = some delim
  shortest : ∀ l, l <+: stream → l.getLast? = some delim → bytes.length ≤ l.length
  all : delim ∉ stream → bytes = stream

theorem takesUpTo_upTo (delim : UInt8) (stream : List UInt8) :
    TakesUpTo delim stream (upTo delim stream) := by
  rcases upTo_cases delim stream with ⟨hdelim, hupTo⟩ | ⟨line, rest, hline, rfl, hupTo⟩
  · rw [hupTo]
    refine ⟨List.prefix_rfl, fun h => absurd h hdelim, fun l hl hlast => ?_, fun _ => rfl⟩
    exact absurd (hl.subset (List.mem_of_getLast? hlast)) hdelim
  · have hmem : delim ∈ line ++ delim :: rest := List.mem_append_right _ List.mem_cons_self
    rw [hupTo]
    refine ⟨⟨rest, List.append_cons line delim rest |>.symm⟩, fun _ => List.getLast?_concat,
      fun l hl hlast => ?_, fun h => absurd hmem h⟩
    -- A shorter prefix is one of the line, in which there is no delimiter.
    by_contra hlen
    rw [List.length_append, List.length_singleton, Nat.not_le, Nat.lt_succ_iff] at hlen
    have hline' : l <+: line :=
      List.prefix_of_prefix_length_le hl (List.prefix_append _ _) hlen
    exact hline (hline'.subset (List.mem_of_getLast? hlast))

/-! ### Counting the empty fills -/

section

variable {R : Type} [BufRead R]

namespace Counted

variable {r r₁ : R}

theorem fillBuf_ok {available : List UInt8} (k : ℕ)
    (hfill : BufRead.fillBuf r = (.ok available, r₁)) :
    BufRead.fillBuf (⟨r, k⟩ : Counted R) =
      (.ok available, ⟨r₁, if available = [] then k + 1 else k⟩) := by
  unfold BufRead.fillBuf instBufReadCounted
  simp only [hfill]

theorem fillBuf_error {e : IoError} (k : ℕ) (hfill : BufRead.fillBuf r = (.error e, r₁)) :
    BufRead.fillBuf (⟨r, k⟩ : Counted R) = (.error e, ⟨r₁, k⟩) := by
  unfold BufRead.fillBuf instBufReadCounted
  simp only [hfill]

end Counted

/-- Counting changes nothing else, and an empty fill is the last one. -/
theorem readUntilLoop_counted [Memchr] (delim : UInt8) (fuel : ℕ) (r : R) (k : ℕ) (buf : List UInt8)
    (read : ℕ) :
    ∃ k' ≤ k + 1, readUntilLoop delim fuel (⟨r, k⟩ : Counted R) buf read =
      (readUntilLoop delim fuel r buf read).map fun p => (p.1, p.2.1, ⟨p.2.2, k'⟩) := by
  induction fuel generalizing r buf read with
  | zero => exact ⟨k, Nat.le_succ k, rfl⟩
  | succ fuel ih =>
    obtain ⟨⟨res, r₁⟩, hfill⟩ : ∃ p, BufRead.fillBuf r = p := ⟨_, rfl⟩
    cases res with
    | error e =>
      have hcounted := Counted.fillBuf_error k hfill
      by_cases he : e.kind = .interrupted
      · rw [readUntilLoop_of_interrupted hcounted he, readUntilLoop_of_interrupted hfill he]
        exact ih r₁ buf read
      · rw [readUntilLoop_of_error hcounted he, readUntilLoop_of_error hfill he]
        exact ⟨k, Nat.le_succ k, rfl⟩
    | ok available =>
      have hcounted := Counted.fillBuf_ok k hfill
      by_cases hnil : available = []
      · subst hnil
        rw [readUntilLoop_of_eof hcounted, readUntilLoop_of_eof hfill]
        -- The empty fill is the end of the stream, and of the loop.
        exact ⟨k + 1, Nat.le_refl _, rfl⟩
      · rw [if_neg hnil] at hcounted
        rcases hmem : memchr delim available with _ | i
        · rw [readUntilLoop_of_more hcounted hnil hmem, readUntilLoop_of_more hfill hnil hmem]
          exact ih _ _ _
        · rw [readUntilLoop_of_found hcounted hmem, readUntilLoop_of_found hfill hmem]
          exact ⟨k, Nat.le_succ k, rfl⟩

end

/-! ### `read_until` -/

variable {R : Type} [LawfulBufRead R]

/-- **What `read_until` takes**: on a reader that does not fail except by interruptions, it ends
after no more than one empty fill, and has appended the shortest prefix of the stream that ends with
the delimiter, or all of the stream; it answers the number of these bytes and has consumed them and
no more.  Every other reader of the same stream takes the same and leaves the same. -/
theorem readUntil_takes [Memchr] (delim : UInt8) (r : R) (buf : List UInt8)
    (hcalm : OnlyInterrupted (errs r)) :
    ∃ bytes, TakesUpTo delim (rest r) bytes ∧
      (∃ N, ∀ fuel ≥ N, ∃ r' emptyFills,
        readUntil fuel r delim buf = some (.ok bytes.length, buf ++ bytes, r') ∧
        rest r = bytes ++ rest r' ∧
        readUntil fuel (⟨r, 0⟩ : Counted R) delim buf =
          some (.ok bytes.length, buf ++ bytes, ⟨r', emptyFills⟩) ∧
        emptyFills ≤ 1) ∧
      ∀ {R' : Type} [LawfulBufRead R'] (s : R'), rest s = rest r → OnlyInterrupted (errs s) →
        ∃ N, ∀ fuel ≥ N, ∃ s', readUntil fuel s delim buf =
            some (.ok bytes.length, buf ++ bytes, s') ∧ rest r = bytes ++ rest s' := by
  refine ⟨upTo delim (rest r), takesUpTo_upTo delim (rest r), ⟨stepsLeft r + 1, ?_⟩, ?_⟩
  · intro fuel hfuel
    obtain ⟨r', hread, hrest, -⟩ := readUntil_spec delim buf hcalm (Nat.lt_of_succ_le hfuel)
    obtain ⟨emptyFills, hle, hcounted⟩ := readUntilLoop_counted delim fuel r 0 buf 0
    refine ⟨r', emptyFills, hread, ?_, ?_, hle⟩
    · rw [hrest, upTo_append_drop]
    · rw [readUntil] at hread ⊢
      rw [hcounted, hread]
      rfl
  · -- Any other reader with the same bytes answers the same.
    intro R' _ s hsame hcalm'
    refine ⟨stepsLeft s + 1, ?_⟩
    intro fuel hfuel
    obtain ⟨s', hread, hrest, -⟩ := readUntil_spec delim buf hcalm' (Nat.lt_of_succ_le hfuel)
    rw [hsame] at hread hrest
    refine ⟨s', hread, ?_⟩
    rw [hrest, upTo_append_drop]

/-- A stream in three fills, interrupted twice, the delimiter being the first byte of the second. -/
theorem readUntil_takes_cut :
    let r := BufReader.new [.data 97 [], .error ⟨.interrupted, ""⟩, .data 10 [98],
      .error ⟨.interrupted, ""⟩, .data 99 []]
    OnlyInterrupted (errs r) ∧ ∃ bytes, TakesUpTo 10 (rest r) bytes ∧
      ∃ N, ∀ fuel ≥ N, ∃ r' emptyFills,
        readUntil fuel r 10 [33] = some (.ok bytes.length, 33 :: bytes, r') ∧
        rest r = bytes ++ rest r' ∧
        readUntil fuel (⟨r, 0⟩ : Counted BufReader) 10 [33] =
          some (.ok bytes.length, 33 :: bytes, ⟨r', emptyFills⟩) ∧
        emptyFills ≤ 1 := by
  intro r
  have hcalm : OnlyInterrupted (errs r) := by
    intro e he
    rcases List.mem_pair.mp he with rfl | rfl
    · rfl
    · rfl
  obtain ⟨bytes, htakes, hread, -⟩ := readUntil_takes 10 r [33] hcalm
  exact ⟨hcalm, bytes, htakes, hread⟩

end BasicCli
