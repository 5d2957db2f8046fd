import BasicCli.Alloc.Basic
import Mathlib.Data.List.Pairwise

/-!
# The allocator's invariant

As long as the program names its live pointers with their alignments and writes inside what it has
been given, the allocator hands `realloc` and `free` the blocks they expect, and every allocation
lies in its block behind a header that says how large the block is (`AllocState.run_safe`).

`AllocInv` is the invariant.  For each of the three functions there is a lemma that says all it does
(`rocAllocFn_cases`, `rocReallocFn_cases`, `rocDeallocFn_eq`), and the steps follow from these.
-/

namespace BasicCli

open Memory

/-! ### Headers -/

/-- The next power of two, where there is room for it. -/
theorem nextPowerOfTwo_spec {n : ℕ} (h : n ≤ 2 ^ 63) :
    ∃ k, nextPowerOfTwo n = 2 ^ k ∧ n ≤ 2 ^ k ∧ k ≤ 63 := by
  refine ⟨Nat.clog 2 n, by rw [nextPowerOfTwo, if_pos h], Nat.le_pow_clog (by decide) n, ?_⟩
  exact Nat.clog_le_of_le_pow h

/-- A header is a power of two of at least a word, so it is one word or has room for two. -/
theorem sizeStorageBytes_spec {alignment : UInt64} (h : alignment.toNat ≤ 2 ^ 63) :
    8 ≤ sizeStorageBytes alignment ∧ sizeStorageBytes alignment ≤ 2 ^ 63 ∧
      (sizeStorageBytes alignment = 8 ∨ 16 ≤ sizeStorageBytes alignment) := by
  have hmax : max (max alignment.toNat 1) 8 ≤ 2 ^ 63 := by omega
  obtain ⟨k, hk, hle, hk63⟩ := nextPowerOfTwo_spec hmax
  have hbytes : sizeStorageBytes alignment = 2 ^ k := hk
  have h3 : 3 ≤ k := by
    by_contra hlt
    have : 2 ^ k ≤ 2 ^ 2 := Nat.pow_le_pow_right (by decide) (by omega)
    omega
  refine ⟨by omega, hbytes ▸ Nat.pow_le_pow_right (by decide) hk63, ?_⟩
  rcases Nat.eq_or_lt_of_le h3 with rfl | h4
  · exact .inl hbytes
  · have : 2 ^ 4 ≤ 2 ^ k := Nat.pow_le_pow_right (by decide) h4
    exact .inr (by omega)

/-- A size that does not overflow is the sum. -/
theorem totalSize_eq_of_lt {alignment length : UInt64}
    (h : length.toNat + sizeStorageBytes alignment ≤ usizeMax)
    (h8 : 8 ≤ sizeStorageBytes alignment) :
    totalSize alignment length = sizeStorageBytes alignment + length.toNat := by
  rw [totalSize, saturatingAdd]
  omega

/-- A block that does not wrap has a size that is not saturated. -/
theorem totalSize_eq_of_noWrap {alignment length : UInt64} {base : ℕ} (hbase : base ≠ 0)
    (hwrap : base + totalSize alignment length < 2 ^ 64)
    (h8 : 8 ≤ sizeStorageBytes alignment) :
    totalSize alignment length = sizeStorageBytes alignment + length.toNat := by
  refine totalSize_eq_of_lt ?_ h8
  rw [totalSize, saturatingAdd] at hwrap
  unfold usizeMax at hwrap ⊢
  omega

/-! ### Words -/

/-- A word is told by its eight bytes. -/
theorem readUsize_congr {m m' : Mem} {a b : ℕ} (h : ∀ i < 8, m' (a + i) = m (b + i)) :
    readUsize m' a = readUsize m b := by
  rw [readUsize, readUsize, Mem.load_congr h]

theorem readUsize_writeUsize_self (m : Mem) (a : ℕ) {v : ℕ} (h : v < 2 ^ 64) :
    readUsize (writeUsize m a v) a = v := by
  have hload := Mem.load_store_self m a (toLeBytes 8 v)
  rw [length_toLeBytes] at hload
  rw [readUsize, writeUsize, hload, ofLeBytes_toLeBytes (by omega)]

/-- A word apart from one that is written stays. -/
theorem readUsize_writeUsize_of_apart (m : Mem) {a b v : ℕ} (h : b + 8 ≤ a ∨ a + 8 ≤ b) :
    readUsize (writeUsize m a v) b = readUsize m b := by
  rw [readUsize, readUsize, writeUsize, Mem.load_store_of_apart]
  rwa [length_toLeBytes]

theorem writeUsize_of_apart (m : Mem) {a v x : ℕ} (h : x < a ∨ a + 8 ≤ x) :
    writeUsize m a v x = m x := by
  rcases h with h | h
  · exact Mem.store_of_lt m _ h
  · exact Mem.store_of_le m (by rwa [length_toLeBytes])

/-! ### The three functions -/

/-- A header of `size` bytes at `base` in `m`: its last word is `total`, and its first is `size` if
it has two. -/
structure HeaderAt (m : Mem) (base size total : ℕ) : Prop where
  sizeWord : readUsize m (base + (size - 8)) = total
  alignWord : 16 ≤ size → readUsize m base = size

/-- A header stays where its bytes stay. -/
theorem HeaderAt.congr {m m' : Mem} {base size total : ℕ} (h8 : 8 ≤ size)
    (h : HeaderAt m base size total) (hm : ∀ i < size, m' (base + i) = m (base + i)) :
    HeaderAt m' base size total := by
  constructor
  · rw [← h.sizeWord]
    apply readUsize_congr
    intro i hi
    rw [Nat.add_assoc]
    exact hm _ (by omega)
  · intro h16
    rw [← h.alignWord h16]
    exact readUsize_congr fun i hi => hm i (by omega)

/-- What `heap'` is like after a block for a user of `length` bytes behind a header of `header`
bytes has been put at `base`, where the blocks of `heap` with `except` made room. -/
structure Placed (heap heap' : Heap) (except : Block → Prop) (base header length : ℕ) : Prop where
  base_ne : base ≠ 0
  fresh : heap.Fresh except base (header + length)
  keeps : heap.Keeps except heap'.mem
  headerAt : HeaderAt heap'.mem base header (header + length)

/-! #### `roc_alloc_fn` -/

/-- The memory after the header of a new block has been written. -/
def withHeader (m : Mem) (base size total : ℕ) : Mem :=
  let m := writeUsize m (base + (size - 8)) total
  if size ≥ 2 * 8 then writeUsize m base size else m

/-- **The header that is written** is there. -/
theorem headerAt_withHeader (m : Mem) (base : ℕ) {size total : ℕ} (h8 : 8 ≤ size)
    (h16 : size = 8 ∨ 16 ≤ size) (hsize : size < 2 ^ 64) (htotal : total < 2 ^ 64) :
    HeaderAt (withHeader m base size total) base size total := by
  unfold withHeader
  rcases h16 with h | h
  · rw [if_neg (by omega)]
    exact ⟨readUsize_writeUsize_self m _ htotal, fun h16 => by omega⟩
  · rw [if_pos h]
    refine ⟨?_, fun _ => readUsize_writeUsize_self _ base hsize⟩
    rw [readUsize_writeUsize_of_apart _ (by omega), readUsize_writeUsize_self m _ htotal]

theorem withHeader_of_apart (m : Mem) {base size total x : ℕ} (h8 : 8 ≤ size)
    (h : x < base ∨ base + size ≤ x) : withHeader m base size total x = m x := by
  unfold withHeader
  split_ifs
  · rw [writeUsize_of_apart _ (by omega), writeUsize_of_apart _ (by omega)]
  · rw [writeUsize_of_apart _ (by omega)]

/-- Bytes of another block are none of a new block's header. -/
theorem lt_or_le_of_apart {b : Block} {base header length x : ℕ}
    (h : b.Apart ⟨base, header + length⟩) (hx : b.Has x) : x < base ∨ base + header ≤ x := by
  unfold Block.Apart at h
  obtain ⟨h₁, h₂⟩ := hx
  dsimp only at h
  omega

/-- **`roc_alloc_fn`** where it returns. -/
theorem rocAllocFn_eq {heap : Heap} {args : RocAlloc} {malloc : Answer}
    (hlen : args.length.toNat ≤ 1024 * 1024 * 1024) (hbase : malloc.base ≠ 0) :
    rocAllocFn heap args malloc = .ok (malloc.base + sizeStorageBytes args.alignment,
      ⟨⟨malloc.base, totalSize args.alignment args.length⟩ :: heap.blocks,
        withHeader malloc.mem malloc.base (sizeStorageBytes args.alignment)
          (totalSize args.alignment args.length)⟩) := by
  unfold rocAllocFn
  rw [if_neg (Nat.not_lt.mpr hlen)]
  refine (if_neg hbase).trans ?_
  simp only [Heap.malloc, if_neg hbase, withHeader]

/-- It returns only a length that passes the check. -/
theorem rocAllocFn_ok {heap heap' : Heap} {args : RocAlloc} {malloc : Answer} {answer : ℕ}
    (h : rocAllocFn heap args malloc = .ok (answer, heap')) :
    args.length.toNat ≤ 1024 * 1024 * 1024 ∧
      answer = malloc.base + sizeStorageBytes args.alignment ∧
      heap'.mem = withHeader malloc.mem malloc.base (sizeStorageBytes args.alignment)
        (totalSize args.alignment args.length) := by
  by_cases hlen : args.length.toNat ≤ 1024 * 1024 * 1024
  · by_cases hbase : malloc.base = 0
    · unfold rocAllocFn at h
      rw [if_neg (Nat.not_lt.mpr hlen), if_pos hbase] at h
      cases h
    · rw [rocAllocFn_eq hlen hbase] at h
      cases h
      exact ⟨hlen, rfl, rfl⟩
  · unfold rocAllocFn at h
    rw [if_pos (Nat.not_le.mp hlen)] at h
    cases h

/-- **`roc_alloc_fn`** ends the process, or puts a block with its header on the heap. -/
theorem rocAllocFn_cases {heap : Heap} {args : RocAlloc} {malloc : Answer}
    (halign : args.alignment.toNat ≤ 2 ^ 63)
    (hmalloc : heap.MallocMeets (totalSize args.alignment args.length) malloc) :
    rocAllocFn heap args malloc = .exit ∨
    ∃ heap', rocAllocFn heap args malloc =
        .ok (malloc.base + sizeStorageBytes args.alignment, heap') ∧
      args.length.toNat ≤ 2 ^ 30 ∧
      heap'.blocks = ⟨malloc.base, sizeStorageBytes args.alignment + args.length.toNat⟩ ::
        heap.blocks ∧
      Placed heap heap' (fun _ => False) malloc.base (sizeStorageBytes args.alignment)
        args.length.toNat := by
  obtain ⟨h8, h63, h16⟩ := sizeStorageBytes_spec halign
  by_cases hlen : args.length.toNat > 1024 * 1024 * 1024
  · exact .inl (if_pos hlen)
  -- The two ways out: a length over the limit, and `malloc` that finds no memory.
  by_cases hbase : malloc.base = 0
  · refine .inl ?_
    unfold rocAllocFn
    rw [if_neg hlen]
    exact if_pos hbase
  have htotal : totalSize args.alignment args.length =
      sizeStorageBytes args.alignment + args.length.toNat :=
    totalSize_eq_of_lt (by unfold usizeMax; omega) h8
  rw [htotal] at hmalloc
  have hfresh := hmalloc.fresh hbase
  have hwrap := hfresh.noWrap
  refine .inr ⟨_, rocAllocFn_eq (Nat.not_lt.mp hlen) hbase, by omega, by rw [htotal], hbase,
    hfresh, ?_, ?_⟩
  · intro b hb hexcept x hx
    dsimp only
    rw [withHeader_of_apart _ h8 (lt_or_le_of_apart (hfresh.apart b hb hexcept) hx),
      hmalloc.keeps b hb hexcept x hx]
  · rw [htotal]
    exact headerAt_withHeader _ _ h8 h16 (by omega) (by omega)

/-! #### `roc_realloc_fn` -/

/-- **`roc_realloc_fn`** where it returns. -/
theorem rocReallocFn_eq {heap : Heap} {args : RocRealloc} {realloc : Answer}
    (hblock : ∃ b ∈ heap.blocks, b.base = args.answer - sizeStorageBytes args.alignment)
    (hbase : realloc.base ≠ 0) :
    rocReallocFn heap args realloc = .ok (realloc.base + sizeStorageBytes args.alignment,
      ⟨⟨realloc.base, totalSize args.alignment args.newLength⟩ ::
          heap.blocks.filter (·.base ≠ args.answer - sizeStorageBytes args.alignment),
        writeUsize realloc.mem (realloc.base + (sizeStorageBytes args.alignment - 8))
          (totalSize args.alignment args.newLength)⟩) := by
  unfold rocReallocFn
  simp only [Heap.realloc, if_pos hblock, if_neg hbase]

/-- It returns only what libc has not refused. -/
theorem rocReallocFn_ok {heap heap' : Heap} {args : RocRealloc} {realloc : Answer} {answer : ℕ}
    (h : rocReallocFn heap args realloc = .ok (answer, heap')) :
    realloc.base ≠ 0 ∧ answer = realloc.base + sizeStorageBytes args.alignment ∧
      heap'.mem = writeUsize realloc.mem (realloc.base + (sizeStorageBytes args.alignment - 8))
        (totalSize args.alignment args.newLength) := by
  by_cases hblock : ∃ b ∈ heap.blocks, b.base = args.answer - sizeStorageBytes args.alignment
  · by_cases hbase : realloc.base = 0
    · unfold rocReallocFn at h
      simp only [Heap.realloc, if_pos hblock, hbase, ↓reduceIte] at h
      cases h
    · rw [rocReallocFn_eq hblock hbase] at h
      cases h
      exact ⟨hbase, rfl, rfl⟩
  · unfold rocReallocFn at h
    simp only [Heap.realloc, if_neg hblock] at h
    cases h

/-- **`roc_realloc_fn`** ends the process, or moves the block of the pointer and writes its
header. -/
theorem rocReallocFn_cases {heap : Heap} {args : RocRealloc} {realloc : Answer}
    {base length : ℕ} (halign : args.alignment.toNat ≤ 2 ^ 63)
    (hptr : args.answer = base + sizeStorageBytes args.alignment)
    (hblock : ⟨base, sizeStorageBytes args.alignment + length⟩ ∈ heap.blocks)
    (hheader : HeaderAt heap.mem base (sizeStorageBytes args.alignment)
      (sizeStorageBytes args.alignment + length))
    (hrealloc : heap.ReallocMeets base (totalSize args.alignment args.newLength) realloc) :
    rocReallocFn heap args realloc = .exit ∨
    ∃ heap', rocReallocFn heap args realloc =
        .ok (realloc.base + sizeStorageBytes args.alignment, heap') ∧
      heap'.blocks = ⟨realloc.base, sizeStorageBytes args.alignment + args.newLength.toNat⟩ ::
        heap.blocks.filter (·.base ≠ base) ∧
      Placed heap heap' (fun b => b.base = base) realloc.base (sizeStorageBytes args.alignment)
        args.newLength.toNat := by
  obtain ⟨h8, h63, h16⟩ := sizeStorageBytes_spec halign
  have hold : args.answer - sizeStorageBytes args.alignment = base := by omega
  have hex : ∃ b ∈ heap.blocks, b.base = base := ⟨_, hblock, rfl⟩
  by_cases hbase : realloc.base = 0
  · refine .inl ?_
    unfold rocReallocFn
    simp only [hold, Heap.realloc, if_pos hex, hbase, ↓reduceIte]
  have hfresh := hrealloc.fresh hbase
  have hwrap := hfresh.noWrap
  have htotal := totalSize_eq_of_noWrap hbase hwrap h8
  rw [htotal] at hfresh hwrap
  have heq := rocReallocFn_eq (hold ▸ hex) hbase
  rw [hold] at heq
  refine .inr ⟨_, heq, by rw [htotal], hbase, hfresh, ?_, ?_⟩
  · intro b hb hexcept x hx
    have hx' := lt_or_le_of_apart (hfresh.apart b hb hexcept) hx
    dsimp only
    rw [writeUsize_of_apart _ (by omega), hrealloc.keeps b hb (fun h => hexcept h.1) x hx]
  · rw [htotal]
    refine ⟨readUsize_writeUsize_self _ _ (by omega), ?_⟩
    intro h
    -- The first word is not written: it comes with the old block's bytes.
    rw [readUsize_writeUsize_of_apart _ (by omega), ← hheader.alignWord h]
    refine readUsize_congr fun i hi => hrealloc.copies hbase _ hblock rfl i ?_ ?_
    · show i < sizeStorageBytes args.alignment + length
      omega
    · omega

/-! #### `roc_dealloc_fn` -/

/-- **`roc_dealloc_fn`** frees the block of the pointer, and no other. -/
theorem rocDeallocFn_eq {heap : Heap} {args : RocDealloc} {base length : ℕ} (mem : Mem)
    (hptr : args.ptr = base + sizeStorageBytes args.alignment)
    (hblock : ⟨base, sizeStorageBytes args.alignment + length⟩ ∈ heap.blocks) :
    rocDeallocFn heap args mem = .ok ⟨heap.blocks.filter (·.base ≠ base), mem⟩ := by
  have hbase : args.ptr - sizeStorageBytes args.alignment = base := by omega
  have hex : ∃ b ∈ heap.blocks, b.base = base := ⟨_, hblock, rfl⟩
  unfold rocDeallocFn
  simp only [hbase, Heap.free, if_pos hex]

/-! ### Runs -/

namespace AllocState

variable {s s' : AllocState}

theorem run_cons_ok {action : AllocAction} {actions : List AllocAction} :
    s.run (action :: actions) = .ok s' ↔
      ∃ s₁, s.step action = .ok s₁ ∧ s₁.run actions = .ok s' := by
  rw [run]
  cases s.step action with
  | ok s₁ => simp
  | exit => simp
  | undefined => simp

/-- **A run of two parts** is the first part and then the second. -/
theorem run_append_ok {before after : List AllocAction} :
    s.run (before ++ after) = .ok s' ↔
      ∃ s₁, s.run before = .ok s₁ ∧ s₁.run after = .ok s' := by
  induction before generalizing s with
  | nil => simp [run]
  | cons action before ih =>
    rw [List.cons_append, run_cons_ok]
    constructor
    · rintro ⟨s₁, hstep, hrun⟩
      obtain ⟨s₂, hbefore, hafter⟩ := ih.mp hrun
      exact ⟨s₂, run_cons_ok.mpr ⟨s₁, hstep, hbefore⟩, hafter⟩
    · rintro ⟨s₂, hbefore, hafter⟩
      obtain ⟨s₁, hstep, hrun⟩ := run_cons_ok.mp hbefore
      exact ⟨s₁, hstep, ih.mpr ⟨s₂, hrun, hafter⟩⟩

/-- What every step of a run keeps, the run keeps. -/
theorem run_invariant {I : AllocState → Prop} {actions : List AllocAction}
    (hstep : ∀ action ∈ actions, ∀ s s', I s → s.step action = .ok s' → I s') (hs : I s)
    (hrun : s.run actions = .ok s') : I s' := by
  induction actions generalizing s with
  | nil =>
    cases hrun
    exact hs
  | cons action actions ih =>
    obtain ⟨s₁, hfirst, hrun⟩ := run_cons_ok.mp hrun
    have hs₁ := hstep action List.mem_cons_self s s₁ hs hfirst
    exact ih (fun a ha => hstep a (List.mem_cons_of_mem action ha)) hs₁ hrun

end AllocState

/-! ### The invariant -/

namespace Live

/-- The number of bytes before the user's. -/
def header (l : Live) : ℕ := sizeStorageBytes l.alignment

/-- The block that an allocation lies in: its header and the user's bytes. -/
def block (l : Live) : Block := ⟨l.ptr - l.header, l.header + l.length.toNat⟩

/-- A live allocation lies behind a header in a block that libc has allocated. -/
structure Ok (l : Live) (heap : Heap) : Prop where
  alignment_le : l.alignment.toNat ≤ 2 ^ 63
  header_le : l.header ≤ l.ptr
  block_mem : l.block ∈ heap.blocks
  noWrap : l.block.base + l.block.size < 2 ^ 64
  headerAt : HeaderAt heap.mem l.block.base l.header l.block.size

theorem Ok.eight_le {l : Live} {heap : Heap} (h : l.Ok heap) : 8 ≤ l.header :=
  (sizeStorageBytes_spec h.alignment_le).1

theorem Ok.ptr_eq {l : Live} {heap : Heap} (h : l.Ok heap) : l.ptr = l.block.base + l.header := by
  have := h.header_le
  show l.ptr = l.ptr - l.header + l.header
  omega

/-- An allocation is still in order if its block is and the block's bytes are the same. -/
theorem Ok.congr {l : Live} {heap heap' : Heap} (h : l.Ok heap) (hblock : l.block ∈ heap'.blocks)
    (hmem : ∀ x, l.block.Has x → x < l.ptr → heap'.mem x = heap.mem x) : l.Ok heap' := by
  refine ⟨h.alignment_le, h.header_le, hblock, h.noWrap, h.headerAt.congr h.eight_le ?_⟩
  intro i hi
  have hptr := h.ptr_eq
  refine hmem _ ⟨by omega, ?_⟩ (by omega)
  show l.block.base + i < l.block.base + (l.header + l.length.toNat)
  omega

/-- Allocations with the same pointer or block overlap. -/
theorem Ok.not_apart {l l' : Live} {heap : Heap} (h : l.Ok heap) (h' : l'.Ok heap)
    (heq : l.ptr = l'.ptr ∨ l.block.base = l'.block.base) : ¬ l.block.Apart l'.block := by
  have h8 := h.eight_le
  have h8' := h'.eight_le
  have hptr := h.ptr_eq
  have hptr' := h'.ptr_eq
  intro hapart
  have hsize : l.block.size = l.header + l.length.toNat := rfl
  have hsize' : l'.block.size = l'.header + l'.length.toNat := rfl
  unfold Block.Apart at hapart
  omega

end Live

instance : Std.Symm fun l l' : Live => l.block.Apart l'.block := ⟨fun _ _ h => Block.Apart.symm h⟩

/-- **The allocator's invariant.** -/
structure AllocInv (s : AllocState) : Prop where
  ok : ∀ l ∈ s.live, l.Ok s.heap
  apart : s.live.Pairwise fun l l' => l.block.Apart l'.block

namespace AllocInv

variable {s : AllocState}

theorem init (mem : Mem) : AllocInv (.init mem) :=
  ⟨fun _ hl => (nomatch hl), List.Pairwise.nil⟩

/-- Different allocations have their blocks apart. -/
theorem apart_of_ne (h : AllocInv s) {l l' : Live} (hl : l ∈ s.live) (hl' : l' ∈ s.live)
    (hne : l ≠ l') : l.block.Apart l'.block :=
  h.apart.forall hl hl' hne

/-- Different pointers come from different blocks. -/
theorem base_ne (h : AllocInv s) {l l' : Live} (hl : l ∈ s.live) (hl' : l' ∈ s.live)
    (hne : l.ptr ≠ l'.ptr) : l.block.base ≠ l'.block.base := by
  intro hbase
  have hne' : l ≠ l' := fun heq => hne (congrArg Live.ptr heq)
  exact (h.ok l hl).not_apart (h.ok l' hl') (.inr hbase) (h.apart_of_ne hl hl' hne')

/-- What a live pointer and its alignment name: a block with a header, and the other allocations lie
in blocks with other bases. -/
theorem named (h : AllocInv s) {ptr : ℕ} {alignment : UInt64}
    (hlive : ∃ l ∈ s.live, l.ptr = ptr ∧ l.alignment = alignment) :
    ∃ base length, alignment.toNat ≤ 2 ^ 63 ∧ ptr = base + sizeStorageBytes alignment ∧
      ⟨base, sizeStorageBytes alignment + length⟩ ∈ s.heap.blocks ∧
      HeaderAt s.heap.mem base (sizeStorageBytes alignment)
        (sizeStorageBytes alignment + length) ∧
      ∀ l' ∈ s.live.filter (·.ptr ≠ ptr), l' ∈ s.live ∧ l'.block.base ≠ base := by
  obtain ⟨l, hl, rfl, rfl⟩ := hlive
  have hok := h.ok l hl
  refine ⟨l.block.base, l.length.toNat, hok.alignment_le, hok.ptr_eq, hok.block_mem, hok.headerAt,
    fun l' hl' => ?_⟩
  rw [List.mem_filter, decide_eq_true_eq] at hl'
  exact ⟨hl'.1, h.base_ne hl'.1 hl hl'.2⟩

/-- A new allocation joins some of the old ones, whose blocks have not been touched. -/
theorem cons {heap' : Heap} {except : Block → Prop} {live' : List Live} {l : Live}
    (h : AllocInv s) (hsub : live'.Sublist s.live) (halign : l.alignment.toNat ≤ 2 ^ 63)
    {base : ℕ} (hptr : l.ptr = base + l.header)
    (hplaced : Placed s.heap heap' except base l.header l.length.toNat)
    (hnew : ⟨base, l.header + l.length.toNat⟩ ∈ heap'.blocks)
    (hold : ∀ l' ∈ live', l'.block ∈ heap'.blocks ∧ ¬ except l'.block) :
    AllocInv ⟨heap', l :: live'⟩ := by
  have hblock : l.block = ⟨base, l.header + l.length.toNat⟩ := by
    unfold Live.block
    rw [hptr, Nat.add_sub_cancel]
  refine ⟨List.forall_mem_cons.mpr ⟨?_, fun l' hl' => ?_⟩, List.pairwise_cons.mpr ⟨?_, ?_⟩⟩
  · refine ⟨halign, by omega, hblock ▸ hnew, ?_, ?_⟩
    · rw [hblock]
      exact hplaced.fresh.noWrap
    · rw [hblock]
      exact hplaced.headerAt
  · -- `malloc` and `realloc` leave every other block as it is.
    have hok := h.ok l' (hsub.subset hl')
    exact hok.congr (hold l' hl').1 fun x hx _ =>
      hplaced.keeps _ hok.block_mem (hold l' hl').2 x hx
  · intro l' hl'
    rw [hblock]
    exact (hplaced.fresh.apart _ (h.ok l' (hsub.subset hl')).block_mem (hold l' hl').2).symm
  · exact h.apart.sublist hsub

/-- **The invariant is kept** by whatever the program may do, unless the process ends. -/
theorem step (h : AllocInv s) {action : AllocAction} (hallows : s.Allows action) :
    s.step action = .exit ∨ ∃ s', s.step action = .ok s' ∧ AllocInv s' := by
  cases action with
  | alloc args malloc =>
    obtain ⟨halign, hmalloc⟩ := hallows
    rcases rocAllocFn_cases halign hmalloc with hexit | ⟨heap', hrun, -, hblocks, hplaced⟩
    · exact .inl (by rw [AllocState.step, hexit])
    · refine .inr ⟨_, by rw [AllocState.step, hrun], ?_⟩
      refine h.cons (l := ⟨_, args.alignment, args.length⟩) (List.Sublist.refl _) halign rfl hplaced
        ?_ fun l' hl' => ⟨?_, id⟩
      · rw [hblocks]
        exact List.mem_cons_self ..
      · rw [hblocks]
        exact List.mem_cons_of_mem _ (h.ok l' hl').block_mem
  | realloc args realloc =>
    obtain ⟨hlive, hrealloc⟩ := hallows
    obtain ⟨base, length, halign, hptr, hblock, hheader, hother⟩ := h.named hlive
    rw [hptr, Nat.add_sub_cancel] at hrealloc
    rcases rocReallocFn_cases halign hptr hblock hheader hrealloc with
      hexit | ⟨heap', hrun, hblocks, hplaced⟩
    · exact .inl (by rw [AllocState.step, hexit])
    · refine .inr ⟨_, by rw [AllocState.step, hrun], ?_⟩
      refine h.cons (l := ⟨_, args.alignment, args.newLength⟩) List.filter_sublist halign rfl
        hplaced ?_ fun l' hl' => ⟨?_, (hother l' hl').2⟩
      · rw [hblocks]
        exact List.mem_cons_self ..
      · obtain ⟨hmem, hne⟩ := hother l' hl'
        rw [hblocks]
        exact List.mem_cons_of_mem _
          (List.mem_filter.mpr ⟨(h.ok l' hmem).block_mem, decide_eq_true hne⟩)
  | dealloc args mem =>
    obtain ⟨hlive, hfree⟩ := hallows
    obtain ⟨base, length, -, hptr, hblock, -, hother⟩ := h.named hlive
    rw [hptr, Nat.add_sub_cancel] at hfree
    refine .inr ⟨_, by rw [AllocState.step, rocDeallocFn_eq mem hptr hblock], fun l' hl' => ?_,
      h.apart.sublist List.filter_sublist⟩
    obtain ⟨hmem, hne⟩ := hother l' hl'
    have hok := h.ok l' hmem
    exact hok.congr (List.mem_filter.mpr ⟨hok.block_mem, decide_eq_true hne⟩)
      fun x hx _ => hfree _ hok.block_mem hne x hx
  | write x v =>
    obtain ⟨l, hl, hx, hx'⟩ := hallows
    refine .inr ⟨_, rfl, fun l' hl' => (h.ok l' hl').congr (h.ok l' hl').block_mem ?_, h.apart⟩
    intro y hy hy'
    have hne : y ≠ x := by
      -- The byte written is a user's, so it is in no header.
      rintro rfl
      by_cases heq : l' = l
      · rw [heq] at hy'
        omega
      · refine (h.apart_of_ne hl' hl heq).not_has hy ⟨?_, ?_⟩
        · have := (h.ok l hl).ptr_eq
          omega
        · have := (h.ok l hl).ptr_eq
          show y < l.block.base + (l.header + l.length.toNat)
          omega
    rcases Nat.lt_or_gt_of_ne hne with hlt | hgt
    · exact Mem.store_of_lt _ _ hlt
    · exact Mem.store_of_le _ hgt

/-- **A step keeps the invariant**: one case for each of the three functions. -/
theorem step_ok (h : AllocInv s) {s' : AllocState} {action : AllocAction}
    (hallows : s.Allows action) (hstep : s.step action = .ok s') : AllocInv s' := by
  rcases h.step hallows with hexit | ⟨s₁, hstep₁, hinv⟩
  · rw [hexit] at hstep
    cases hstep
  · rw [hstep₁] at hstep
    cases hstep
    exact hinv

/-- **A run** ends the process or keeps the invariant. -/
theorem run (h : AllocInv s) {actions : List AllocAction} (hallows : s.AllowsAll actions) :
    s.run actions = .exit ∨ ∃ s', s.run actions = .ok s' ∧ AllocInv s' := by
  induction actions generalizing s with
  | nil => exact .inr ⟨s, rfl, h⟩
  | cons action actions ih =>
    rw [AllocState.run]
    rcases h.step hallows.1 with hexit | ⟨s', hstep, hinv⟩
    · exact .inl (by rw [hexit])
    · rw [hstep]
      exact ih hinv (hallows.2 s' hstep)

end AllocInv

/-! ### Safety -/

/-- What the host may rely on in a state: a live allocation begins right behind a header at the base
of a block of libc's that ends with it, the word before it is the block's size and the first word of
a header of two is its alignment; and no two live allocations, with their headers, share a byte. -/
structure AllocSafe (s : AllocState) : Prop where
  placed : ∀ l ∈ s.live, ∃ b ∈ s.heap.blocks,
    l.ptr = b.base + sizeStorageBytes l.alignment ∧
    b.size = sizeStorageBytes l.alignment + l.length.toNat ∧
    b.base + b.size < 2 ^ 64 ∧
    8 ≤ sizeStorageBytes l.alignment ∧
    readUsize s.heap.mem (l.ptr - 8) = b.size ∧
    (2 * 8 ≤ sizeStorageBytes l.alignment →
      readUsize s.heap.mem b.base = sizeStorageBytes l.alignment)
  apart : s.live.Pairwise fun l l' => ∀ x,
    ¬ ((l.ptr - sizeStorageBytes l.alignment ≤ x ∧ x < l.ptr + l.length.toNat) ∧
      (l'.ptr - sizeStorageBytes l'.alignment ≤ x ∧ x < l'.ptr + l'.length.toNat))

/-- What a program may touch is in the block, header and all. -/
theorem Live.Ok.has_of_range {l : Live} {heap : Heap} (h : l.Ok heap) {x : ℕ}
    (hx : l.ptr - sizeStorageBytes l.alignment ≤ x ∧ x < l.ptr + l.length.toNat) :
    l.block.Has x := by
  have hptr := h.ptr_eq
  refine ⟨hx.1, ?_⟩
  show x < l.block.base + (l.header + l.length.toNat)
  omega

/-- The invariant is safety. -/
theorem AllocInv.safe {s : AllocState} (h : AllocInv s) : AllocSafe s := by
  constructor
  · intro l hl
    have hok := h.ok l hl
    have h8 := hok.eight_le
    have hword : l.ptr - 8 = l.block.base + (l.header - 8) := by
      rw [hok.ptr_eq]
      omega
    refine ⟨l.block, hok.block_mem, hok.ptr_eq, rfl, hok.noWrap, h8, ?_, hok.headerAt.alignWord⟩
    rw [hword]
    exact hok.headerAt.sizeWord
  · apply h.apart.imp_of_mem
    intro l l' hl hl' hapart x hx
    exact hapart.not_has ((h.ok _ hl).has_of_range hx.1) ((h.ok _ hl').has_of_range hx.2)

/-- **Safety of the allocator**: whatever the program does, the process ends with the host error or
the state is safe; nothing that libc leaves undefined happens. -/
theorem AllocState.run_safe (mem : Mem) (actions : List AllocAction)
    (hallows : (init mem).AllowsAll actions) :
    (init mem).run actions = .exit ∨
      ∃ s, (init mem).run actions = .ok s ∧ AllocSafe s := by
  rcases (AllocInv.init mem).run hallows with hexit | ⟨s, hrun, hinv⟩
  · exact .inl hexit
  · exact .inr ⟨s, hrun, hinv.safe⟩

/-- An allocation of three bytes that is written to, grown to forty in place, and given back. -/
def reallocActions : List AllocAction :=
  let mem := withHeader (fun _ => 0) 4096 16 19
  [.alloc ⟨16, 3⟩ ⟨4096, fun _ => 0⟩, .write 4113 7,
    .realloc ⟨16, 40, 4112⟩ ⟨4096, mem.store 4113 [7]⟩, .dealloc ⟨4112, 16⟩ fun _ => 0]

theorem reallocActions_allowed : (AllocState.init fun _ => 0).AllowsAll reallocActions := by
  refine ⟨⟨by decide, fun _ hb => (nomatch hb), fun _ => ⟨fun _ hb => (nomatch hb), by decide⟩⟩, ?_⟩
  rintro s ⟨⟩
  refine ⟨⟨_, List.mem_singleton_self _, by decide, by decide⟩, ?_⟩
  rintro s ⟨⟩
  refine ⟨⟨⟨_, List.mem_singleton_self _, rfl, rfl⟩, ?_, ?_, ?_⟩, ?_⟩
  · exact fun _ _ _ _ _ => rfl
  · refine fun _ => ⟨?_, by decide⟩
    intro b hb hne
    rw [List.mem_singleton.mp hb] at hne
    exact absurd rfl hne
  · exact fun _ _ _ _ _ _ _ => rfl
  · rintro s ⟨⟩
    refine ⟨⟨⟨_, List.mem_singleton_self _, rfl, rfl⟩, ?_⟩, fun _ _ => trivial⟩
    intro b hb hne
    rw [List.mem_singleton.mp hb] at hne
    exact absurd rfl hne

/-- An allocation, a `realloc` and a deallocation. -/
theorem AllocState.run_safe_realloc :
    (init fun _ => 0).run reallocActions = .exit ∨
      ∃ s, (init fun _ => 0).run reallocActions = .ok s ∧ AllocSafe s :=
  AllocState.run_safe (fun _ => 0) reallocActions reallocActions_allowed

end BasicCli
