import BasicCli.Alloc.Equiv.Store
import Mathlib.Data.List.Induction

/-!
# What is asked of the allocator

Two things that a program asks for are not always what it is given.

* The header is as long as the alignment, so the pointer is a multiple of it iff the base of the
  block is (`dvd_answer_iff`), and libc promises 16 (`AllocState.alignsTo_iff`).
* The sanity check on the length is made by `roc_alloc_fn` and not by `roc_realloc_fn`
  (`AllocState.lengths_iff`).

Both follow from what one action adds to the live allocations (`AllocState.live_step`).
-/

namespace BasicCli

open Memory

namespace AllocAction

/-- The action is a call that gives the program this allocation. -/
def Gives (l : Live) : AllocAction → Prop
  | alloc args answer =>
    l = ⟨answer.base + sizeStorageBytes args.alignment, args.alignment, args.length⟩ ∧
      args.length.toNat ≤ 1024 * 1024 * 1024
  | realloc args answer =>
    l = ⟨answer.base + sizeStorageBytes args.alignment, args.alignment, args.newLength⟩ ∧
      answer.base ≠ 0
  | _ => False

end AllocAction

namespace AllocState

variable {s s' : AllocState}

/-- **What an action adds** to the live allocations. -/
theorem live_step {action : AllocAction} (hstep : s.step action = .ok s') {l : Live}
    (hl : l ∈ s'.live) : l ∈ s.live ∨ action.Gives l := by
  -- Only the two calls that answer memory can add to what is live.
  cases action with
  | alloc args malloc =>
    rw [step] at hstep
    split at hstep <;> cases hstep
    next answer heap hok =>
      obtain ⟨hlen, rfl, -⟩ := rocAllocFn_ok hok
      obtain rfl | hl := List.mem_cons.mp hl
      · exact .inr ⟨rfl, hlen⟩
      · exact .inl hl
  | realloc args realloc =>
    rw [step] at hstep
    split at hstep <;> cases hstep
    next answer heap hok =>
      obtain ⟨hbase, rfl, -⟩ := rocReallocFn_ok hok
      obtain rfl | hl := List.mem_cons.mp hl
      · exact .inr ⟨rfl, hbase⟩
      · exact .inl (List.mem_of_mem_filter hl)
  | dealloc args mem =>
    rw [step] at hstep
    split at hstep <;> cases hstep
    exact .inl (List.mem_of_mem_filter hl)
  | write x v =>
    cases hstep
    exact .inl hl

end AllocState

/-! ### Alignment -/

theorem toNat_le_of_pow {alignment : UInt64} (h : ∃ k, alignment.toNat = 2 ^ k) :
    alignment.toNat ≤ 2 ^ 63 := by
  obtain ⟨k, hk⟩ := h
  have hlt := alignment.toNat_lt
  rw [hk] at hlt ⊢
  have hk64 : k < 64 := (Nat.pow_lt_pow_iff_right (by decide)).mp hlt
  exact Nat.pow_le_pow_right (by decide) (Nat.le_of_lt_succ hk64)

/-- A header of a power of two is a multiple of the alignment. -/
theorem dvd_sizeStorageBytes {alignment : UInt64} (h : ∃ k, alignment.toNat = 2 ^ k) :
    alignment.toNat ∣ sizeStorageBytes alignment := by
  have hk63 := toNat_le_of_pow h
  obtain ⟨k, hk⟩ := h
  obtain ⟨j, hj, hle, -⟩ := nextPowerOfTwo_spec (n := max (max alignment.toNat 1) 8) (by omega)
  have hheader : sizeStorageBytes alignment = 2 ^ j := hj
  rw [hheader, hk]
  apply Nat.pow_dvd_pow
  -- Both are powers of two, and the header is not the smaller.
  rw [← Nat.pow_le_pow_iff_right (a := 2) (by decide), ← hk]
  omega

/-- **A pointer is aligned iff its block is.** -/
theorem dvd_answer_iff {alignment : UInt64} (h : ∃ k, alignment.toNat = 2 ^ k) (base : ℕ) :
    alignment.toNat ∣ base + sizeStorageBytes alignment ↔ alignment.toNat ∣ base :=
  Nat.dvd_add_iff_left (dvd_sizeStorageBytes h) |>.symm

/-- libc answers with a multiple of 16. -/
def AllocAction.LibcAligned : AllocAction → Prop
  | alloc _ malloc => 16 ∣ malloc.base
  | realloc _ answer => 16 ∣ answer.base
  | _ => True

namespace AllocState

/-- Whatever a program does, and wherever libc puts its blocks, each pointer that it is given for
the alignment, by `roc_alloc_fn` or by a later `roc_realloc_fn`, is a multiple of it. -/
def AlignsTo (alignment : UInt64) : Prop :=
  ∀ mem actions s, (init mem).AllowsAll actions → (∀ action ∈ actions, action.LibcAligned) →
    (init mem).run actions = .ok s →
      ∀ l ∈ s.live, l.alignment = alignment → alignment.toNat ∣ l.ptr

theorem base_aligned {mem : Mem} {actions : List AllocAction} {s : AllocState}
    (hlibc : ∀ action ∈ actions, action.LibcAligned) (hrun : (init mem).run actions = .ok s) :
    ∀ l ∈ s.live, ∃ base, 16 ∣ base ∧ l.ptr = base + sizeStorageBytes l.alignment := by
  refine run_invariant
    (I := fun s => ∀ l ∈ s.live, ∃ base, 16 ∣ base ∧ l.ptr = base + sizeStorageBytes l.alignment)
    (fun action haction s s' hs hstep l hl => ?_) (fun l hl => by cases hl) hrun
  have haligned := hlibc action haction
  obtain hl | hgives := live_step hstep hl
  · exact hs l hl
  · cases action with
    | alloc args malloc =>
      obtain ⟨rfl, -⟩ := hgives
      exact ⟨malloc.base, haligned, rfl⟩
    | realloc args realloc =>
      obtain ⟨rfl, -⟩ := hgives
      exact ⟨realloc.base, haligned, rfl⟩
    | dealloc args mem => cases hgives
    | write x v => cases hgives

/-- An allocation of nothing, in a block at 16. -/
def allocAt16 (alignment : UInt64) : List AllocAction := [.alloc ⟨alignment, 0⟩ ⟨16, fun _ => 0⟩]

theorem allocAt16_allowed {alignment : UInt64} (h : alignment.toNat ≤ 2 ^ 63) :
    (init fun _ => 0).AllowsAll (allocAt16 alignment) := by
  obtain ⟨h8, h63, -⟩ := sizeStorageBytes_spec h
  have hzero : (0 : UInt64).toNat = 0 := rfl
  have htotal : totalSize alignment 0 = sizeStorageBytes alignment + (0 : UInt64).toNat :=
    totalSize_eq_of_lt (by unfold usizeMax; omega) h8
  refine ⟨⟨h, fun b hb => ?_, fun _ => ⟨fun b hb => ?_, ?_⟩⟩, fun _ _ => trivial⟩
  · cases hb
  · cases hb
  · show 16 + totalSize alignment 0 < 2 ^ 64
    omega

theorem run_allocAt16 (alignment : UInt64) : ∃ heap,
    (init fun _ => 0).run (allocAt16 alignment) =
      .ok ⟨heap, [⟨16 + sizeStorageBytes alignment, alignment, 0⟩]⟩ := ⟨_, rfl⟩

theorem not_alignsTo {alignment : UInt64} (hpow : ∃ k, alignment.toNat = 2 ^ k)
    (hlt : 16 < alignment.toNat) : ¬ AlignsTo alignment := by
  intro h
  -- The block at 16 would be a multiple of the alignment.
  have hdvd := h _ (allocAt16 alignment) _ (allocAt16_allowed (toNat_le_of_pow hpow))
    (List.forall_mem_singleton.mpr (Nat.dvd_refl 16)) (run_allocAt16 alignment).choose_spec _
    (List.mem_singleton_self _) rfl
  have hle := Nat.le_of_dvd (by decide) ((dvd_answer_iff hpow 16).mp hdvd)
  omega

/-- **Alignments are kept up to 16**, and no others: a block may lie at any multiple of 16. -/
theorem alignsTo_iff {alignment : UInt64} (hpow : ∃ k, alignment.toNat = 2 ^ k) :
    AlignsTo alignment ↔ alignment.toNat ≤ 16 := by
  constructor
  · intro h
    by_contra hlt
    exact not_alignsTo hpow (Nat.not_le.mp hlt) h
  · intro hle mem actions s _ hlibc hrun l hl halign
    obtain ⟨base, hbase, hptr⟩ := base_aligned hlibc hrun l hl
    rw [hptr, halign, dvd_answer_iff hpow]
    obtain ⟨k, hk⟩ := hpow
    have hk4 : k ≤ 4 := by
      rw [hk] at hle
      exact (Nat.pow_le_pow_iff_right (a := 2) (by decide)).mp hle
    rw [hk]
    exact Nat.dvd_trans (Nat.pow_dvd_pow 2 hk4) hbase

theorem alignsTo_iff_16 : AlignsTo 16 ↔ (16 : UInt64).toNat ≤ 16 := alignsTo_iff ⟨4, rfl⟩

/-- For the alignment 32 the pointer may be 48. -/
theorem not_alignsTo_32 : ¬ AlignsTo 32 := not_alignsTo ⟨5, rfl⟩ (by decide)

end AllocState

/-! ### Lengths -/

/-- A reallocation that libc does not refuse is of no more than 1 GiB. -/
def AllocAction.Sane : AllocAction → Prop
  | realloc args answer => answer.base ≠ 0 → args.newLength.toNat ≤ 1024 * 1024 * 1024
  | _ => True

namespace AllocState

variable {s s' : AllocState}

/-- No live allocation is of more than 1 GiB. -/
def Bounded (s : AllocState) : Prop := ∀ l ∈ s.live, l.length.toNat ≤ 1024 * 1024 * 1024

/-- **A sane step keeps the bound.** -/
theorem bounded_step {action : AllocAction} (hs : s.Bounded) (hsane : action.Sane)
    (hstep : s.step action = .ok s') : s'.Bounded := by
  intro l hl
  obtain hl | hgives := live_step hstep hl
  · exact hs l hl
  · cases action with
    | alloc args malloc =>
      obtain ⟨rfl, hlen⟩ := hgives
      exact hlen
    | realloc args realloc =>
      obtain ⟨rfl, hbase⟩ := hgives
      exact hsane hbase
    | dealloc args mem => cases hgives
    | write x v => cases hgives

/-- **A step that keeps the bound is sane.** -/
theorem sane_of_bounded {action : AllocAction} (h : AllocInv s) (hallows : s.Allows action)
    (hbounded : ∀ s', s.step action = .ok s' → s'.Bounded) : action.Sane := by
  cases action with
  | realloc args realloc =>
    intro hbase
    obtain ⟨base, length, -, hptr, hblock, -, -⟩ := h.named hallows.1
    have hold : args.answer - sizeStorageBytes args.alignment = base := by
      rw [hptr, Nat.add_sub_cancel]
    -- The call is answered, whatever length it asks for.
    have hstep : ∃ heap', s.step (.realloc args realloc) = .ok ⟨heap',
        ⟨realloc.base + sizeStorageBytes args.alignment, args.alignment, args.newLength⟩ ::
          s.live.filter (·.ptr ≠ args.answer)⟩ := by
      rw [step, rocReallocFn_eq ⟨_, hblock, hold.symm⟩ hbase]
      exact ⟨_, rfl⟩
    obtain ⟨heap', hstep⟩ := hstep
    exact hbounded _ hstep _ List.mem_cons_self
  | alloc args malloc => trivial
  | dealloc args mem => trivial
  | write x v => trivial

/-- **No allocation is of more than 1 GiB** in any state of a run iff no reallocation asks for
more. -/
theorem lengths_iff (mem : Mem) (actions : List AllocAction)
    (hallows : (init mem).AllowsAll actions) :
    (∀ before s, before <+: actions → (init mem).run before = .ok s →
      ∀ l ∈ s.live, l.length.toNat ≤ 1024 * 1024 * 1024) ↔
    ∀ before action s, before ++ [action] <+: actions → (init mem).run before = .ok s →
      action.Sane := by
  constructor
  · -- The last call of every shorter run keeps the bound, so its request is sane.
    rintro h before action s ⟨after, hafter⟩ hrun
    obtain ⟨hinv, hallows⟩ := (AllocInv.init mem).run_ok
      (by rwa [← hafter, List.append_assoc] at hallows) hrun
    refine sane_of_bounded hinv hallows.1 fun s' hstep => ?_
    have hlast : s.run [action] = .ok s' := run_cons_ok.mpr ⟨s', hstep, rfl⟩
    exact h _ s' ⟨after, hafter⟩ (run_append_ok.mpr ⟨s, hrun, hlast⟩)
  · -- From the left: the requests are sane, so the bound is kept from call to call.
    intro h before
    induction before using List.reverseRecOn with
    | nil =>
      intro s _ hrun
      cases hrun
      exact fun l hl => by cases hl
    | append_singleton before action ih =>
      intro s hstart hrun
      obtain ⟨s₁, hbefore, hlast⟩ := run_append_ok.mp hrun
      obtain ⟨s₂, hstep, hnil⟩ := run_cons_ok.mp hlast
      cases hnil
      have hs₁ := ih s₁ ((List.prefix_append before [action]).trans hstart) hbefore
      exact bounded_step hs₁ (h before action s₁ hstart hbefore) hstep

theorem lengths_iff_realloc :
    (∀ before s, before <+: reallocActions → (init fun _ => 0).run before = .ok s →
      ∀ l ∈ s.live, l.length.toNat ≤ 1024 * 1024 * 1024) ↔
    ∀ before action s, before ++ [action] <+: reallocActions →
      (init fun _ => 0).run before = .ok s → action.Sane :=
  lengths_iff (fun _ => 0) reallocActions reallocActions_allowed

/-- An allocation of three bytes that is grown in place to one byte more than 1 GiB. -/
def growActions : List AllocAction :=
  [.alloc ⟨16, 3⟩ ⟨4096, fun _ => 0⟩,
    .realloc ⟨16, 1073741825, 4112⟩ ⟨4096, withHeader (fun _ => 0) 4096 16 19⟩]

theorem growActions_allowed : (init fun _ => 0).AllowsAll growActions := by
  refine ⟨⟨by decide, fun b hb => ?_, fun _ => ⟨fun b hb => ?_, by decide⟩⟩, ?_⟩
  · cases hb
  · cases hb
  · rintro s ⟨⟩
    refine ⟨⟨⟨_, List.mem_singleton_self _, rfl, rfl⟩, ?_, ?_, ?_⟩, fun _ _ => trivial⟩
    · exact fun _ _ _ _ _ => rfl
    · refine fun _ => ⟨fun b hb hne => ?_, by decide⟩
      rw [List.mem_singleton.mp hb] at hne
      exact absurd rfl hne
    · exact fun _ _ _ _ _ _ _ => rfl

theorem not_lengths :
    (init fun _ => 0).AllowsAll growActions ∧
      ∃ s, (init fun _ => 0).run growActions = .ok s ∧
        ∃ l ∈ s.live, ¬ l.length.toNat ≤ 1024 * 1024 * 1024 :=
  ⟨growActions_allowed, _, rfl, ⟨4112, 16, 1073741825⟩, List.mem_cons_self, by decide⟩

end AllocState

end BasicCli
