import BasicCli.Alloc.Equiv.Invariant
import BasicCli.Memory.ByteStore

/-!
# The allocator as a store of byte strings

The user's bytes of the live allocations are a store of byte strings by their pointers
(`AllocState.store`), and every call and every write is an operation on it
(`AllocState.run_refines`): the headers, which only the host knows of, never get in the way.
-/

namespace BasicCli

open Memory

/-! ### The store -/

/-- The user's bytes of an allocation. -/
def Live.bytes (l : Live) (m : Mem) : List UInt8 := m.load l.ptr l.length.toNat

namespace AllocState

/-- The bytes of the live allocations, by their pointers. -/
def store (s : AllocState) : ByteStore ℕ := fun p =>
  (s.live.find? (·.ptr = p)).map (·.bytes s.heap.mem)

/-- What an action is to the store. -/
def storeOp? (s : AllocState) : AllocAction → Option (StoreOp ℕ)
  | .alloc args malloc =>
    match rocAllocFn s.heap args malloc with
    | .ok (answer, _) => some (.alloc answer args.length.toNat)
    | _ => none
  | .realloc args realloc =>
    match rocReallocFn s.heap args realloc with
    | .ok (answer, _) => some (.realloc args.answer answer args.newLength.toNat)
    | _ => none
  | .dealloc args _ => some (.dealloc args.ptr)
  | .write x v =>
    (s.live.find? fun l => l.ptr ≤ x ∧ x < l.ptr + l.length.toNat).map fun l =>
      .write l.ptr (x - l.ptr) v

/-- What some actions are to the store. -/
def storeOps (s : AllocState) : List AllocAction → List (StoreOp ℕ)
  | [] => []
  | action :: actions =>
    match s.step action with
    | .ok s' => (s.storeOp? action).toList ++ s'.storeOps actions
    | _ => []

end AllocState

namespace AllocAction

/-- The action names the allocation. -/
def Names (l : Live) : AllocAction → Prop
  | alloc _ _ => False
  | realloc args _ => l.ptr = args.answer
  | dealloc args _ => l.ptr = args.ptr
  | write x _ => l.ptr ≤ x ∧ x < l.ptr + l.length.toNat

/-- The memory that libc leaves to the host's function. -/
def libcMem? : AllocAction → Option Mem
  | alloc _ answer => some answer.mem
  | realloc _ answer => some answer.mem
  | dealloc _ mem => some mem
  | write _ _ => none

/-- What an action leaves alone. -/
structure Frame (s : AllocState) (action : AllocAction) (s' : AllocState) : Prop where
  /-- Other allocations stay, with their bytes. -/
  others : ∀ l ∈ s.live, ¬ action.Names l →
    l ∈ s'.live ∧ ∀ i < l.length.toNat, s'.heap.mem (l.ptr + i) = s.heap.mem (l.ptr + i)
  /-- What the host writes after libc has answered is no user's byte. -/
  headers : ∀ mem, action.libcMem? = some mem → ∀ l ∈ s'.live, ∀ i < l.length.toNat,
    s'.heap.mem (l.ptr + i) = mem (l.ptr + i)
  /-- The bytes that the old and the new allocation have in common stay at their offsets. -/
  common : ∀ args answer', action = .realloc args answer' → ∀ l ∈ s.live, l.ptr = args.answer →
    ∃ answer, rocReallocFn s.heap args answer' = .ok (answer, s'.heap) ∧
      ⟨answer, args.alignment, args.newLength⟩ ∈ s'.live ∧
      ∀ i < min l.length.toNat args.newLength.toNat,
        s'.heap.mem (answer + i) = s.heap.mem (l.ptr + i)

end AllocAction

/-! ### What the host writes -/

/-- Beside the header, the memory is as `malloc` leaves it. -/
theorem rocAllocFn_mem {heap heap' : Heap} {args : RocAlloc} {malloc : Answer} {answer : ℕ}
    (halign : args.alignment.toNat ≤ 2 ^ 63)
    (h : rocAllocFn heap args malloc = .ok (answer, heap')) {x : ℕ}
    (hx : x < malloc.base ∨ malloc.base + sizeStorageBytes args.alignment ≤ x) :
    heap'.mem x = malloc.mem x := by
  obtain ⟨-, -, hmem⟩ := rocAllocFn_ok h
  rw [hmem]
  exact withHeader_of_apart _ (sizeStorageBytes_spec halign).1 hx

/-- Beside the header, the memory is as `realloc` leaves it. -/
theorem rocReallocFn_mem {heap heap' : Heap} {args : RocRealloc} {realloc : Answer} {answer : ℕ}
    (halign : args.alignment.toNat ≤ 2 ^ 63)
    (h : rocReallocFn heap args realloc = .ok (answer, heap')) {x : ℕ}
    (hx : x < realloc.base ∨ realloc.base + sizeStorageBytes args.alignment ≤ x) :
    heap'.mem x = realloc.mem x := by
  have h8 := (sizeStorageBytes_spec halign).1
  obtain ⟨-, -, hmem⟩ := rocReallocFn_ok h
  rw [hmem]
  exact writeUsize_of_apart _ (by omega)

/-! ### The store of a state -/

theorem AllocState.store_eq_none {s : AllocState} {p : ℕ} (h : ¬ ∃ l ∈ s.live, l.ptr = p) :
    s.store p = none := by
  have hfind : s.live.find? (·.ptr = p) = none := by
    refine List.find?_eq_none.mpr fun l hl hptr => h ⟨l, hl, ?_⟩
    simpa using hptr
  rw [AllocState.store, hfind, Option.map_none]

/-! ### What an action leaves alone -/

/-- The bytes of an allocation are in its block. -/
theorem Live.Ok.has {l : Live} {heap : Heap} (h : l.Ok heap) {i : ℕ} (hi : i < l.length.toNat) :
    l.block.Has (l.ptr + i) :=
  h.has_of_range ⟨by omega, by omega⟩

/-- Bytes of an allocation that a new block has not replaced are kept, and lie outside the new
header. -/
theorem Placed.user {heap heap' : Heap} {except : Block → Prop} {base header length : ℕ}
    (h : Placed heap heap' except base header length) {l : Live} (hok : l.Ok heap)
    (hexcept : ¬ except l.block) {i : ℕ} (hi : i < l.length.toNat) :
    heap'.mem (l.ptr + i) = heap.mem (l.ptr + i) ∧ (l.ptr + i < base ∨ base + header ≤ l.ptr + i) :=
  ⟨h.keeps _ hok.block_mem hexcept _ (hok.has hi),
    lt_or_le_of_apart (h.fresh.apart _ hok.block_mem hexcept) (hok.has hi)⟩

namespace AllocInv

variable {s s' : AllocState} {action : AllocAction}

/-- **An address is in one allocation** at most. -/
theorem eq_of_has (h : AllocInv s) {l l' : Live} (hl : l ∈ s.live) (hl' : l' ∈ s.live) {x : ℕ}
    (hx : l.block.Has x) (hx' : l'.block.Has x) : l = l' := by
  by_contra hne
  exact (h.apart_of_ne hl hl' hne).not_has hx hx'

theorem eq_of_ptr (h : AllocInv s) {l l' : Live} (hl : l ∈ s.live) (hl' : l' ∈ s.live)
    (hptr : l.ptr = l'.ptr) : l = l' := by
  by_contra hne
  exact (h.ok l hl).not_apart (h.ok l' hl') (.inl hptr) (h.apart_of_ne hl hl' hne)

theorem frame_alloc (h : AllocInv s) {args : RocAlloc} {malloc : Answer}
    (hallows : s.Allows (.alloc args malloc)) (hstep : s.step (.alloc args malloc) = .ok s') :
    AllocAction.Frame s (.alloc args malloc) s' := by
  obtain ⟨halign, hmalloc⟩ := hallows
  rcases rocAllocFn_cases halign hmalloc with hexit | ⟨heap', hrun, -, -, hplaced⟩
  · rw [AllocState.step, hexit] at hstep
    cases hstep
  · rw [AllocState.step, hrun] at hstep
    cases hstep
    -- The header is in the new block, which is apart from those of the other allocations.
    refine ⟨fun l hl _ => ⟨List.mem_cons_of_mem _ hl, fun i hi => ?_⟩, fun mem hmem l hl i hi => ?_,
      fun _ _ heq => by cases heq⟩
    · exact (hplaced.user (h.ok l hl) id hi).1
    · cases hmem
      apply rocAllocFn_mem halign hrun
      rcases List.mem_cons.mp hl with rfl | hl
      · exact .inr (Nat.le_add_right _ _)
      · exact (hplaced.user (h.ok l hl) id hi).2

theorem frame_realloc (h : AllocInv s) {args : RocRealloc} {realloc : Answer}
    (hallows : s.Allows (.realloc args realloc)) (hstep : s.step (.realloc args realloc) = .ok s') :
    AllocAction.Frame s (.realloc args realloc) s' := by
  obtain ⟨alignment, newLength, answer⟩ := args
  obtain ⟨⟨l, hl, rfl, rfl⟩, hrealloc⟩ := hallows
  have hok := h.ok l hl
  have halign : (RocRealloc.mk l.alignment newLength l.ptr).alignment.toNat ≤ 2 ^ 63 :=
    hok.alignment_le
  have hblock : ⟨l.block.base, sizeStorageBytes l.alignment + l.length.toNat⟩ ∈ s.heap.blocks :=
    hok.block_mem
  rcases rocReallocFn_cases halign hok.ptr_eq hblock hok.headerAt hrealloc with
    hexit | ⟨heap', hrun, -, hplaced⟩
  · rw [AllocState.step, hexit] at hstep
    cases hstep
  · rw [AllocState.step, hrun] at hstep
    cases hstep
    refine ⟨fun l' hl' hnames => ⟨?_, fun i hi => ?_⟩, fun mem hmem l' hl' i hi => ?_, ?_⟩
    · exact List.mem_cons_of_mem _ (List.mem_filter.mpr ⟨hl', decide_eq_true hnames⟩)
    · exact (hplaced.user (h.ok l' hl') (h.base_ne hl' hl hnames) hi).1
    · cases hmem
      apply rocReallocFn_mem halign hrun
      rcases List.mem_cons.mp hl' with rfl | hl'
      · exact .inr (Nat.le_add_right _ _)
      · rw [List.mem_filter, decide_eq_true_eq] at hl'
        exact (hplaced.user (h.ok l' hl'.1) (h.base_ne hl'.1 hl hl'.2) hi).2
    · rintro _ _ ⟨⟩ l' hl' hptr
      obtain rfl := h.eq_of_ptr hl' hl hptr
      refine ⟨_, hrun, List.mem_cons_self, fun i hi => ?_⟩
      obtain ⟨hold, hnew⟩ := Nat.lt_min.mp hi
      have htotal : totalSize l'.alignment newLength = l'.header + newLength.toNat :=
        totalSize_eq_of_noWrap hplaced.base_ne (hrealloc.fresh hplaced.base_ne).noWrap hok.eight_le
      -- `realloc` keeps the block from its base on, and the header has the same size as before.
      have hcopy := hrealloc.copies hplaced.base_ne _ hok.block_mem rfl (l'.header + i)
        (Nat.add_lt_add_left hold _) (htotal ▸ Nat.add_lt_add_left hnew _)
      rw [rocReallocFn_mem halign hrun (.inr (Nat.le_add_right _ _)), Nat.add_assoc,
        hok.ptr_eq, Nat.add_assoc]
      exact hcopy

theorem frame_dealloc (h : AllocInv s) {args : RocDealloc} {mem : Mem}
    (hallows : s.Allows (.dealloc args mem)) (hstep : s.step (.dealloc args mem) = .ok s') :
    AllocAction.Frame s (.dealloc args mem) s' := by
  obtain ⟨ptr, alignment⟩ := args
  obtain ⟨⟨l, hl, rfl, rfl⟩, hfree⟩ := hallows
  have hok := h.ok l hl
  have hptr : (RocDealloc.mk l.ptr l.alignment).ptr =
      l.block.base + sizeStorageBytes (RocDealloc.mk l.ptr l.alignment).alignment := hok.ptr_eq
  have hblock : ⟨l.block.base, sizeStorageBytes l.alignment + l.length.toNat⟩ ∈ s.heap.blocks :=
    hok.block_mem
  rw [AllocState.step, rocDeallocFn_eq mem hptr hblock] at hstep
  cases hstep
  refine ⟨fun l' hl' hnames => ⟨?_, fun i hi => ?_⟩, fun _ hmem l' _ i _ => ?_,
    fun _ _ heq => by cases heq⟩
  · -- The others stay live, and `free` leaves their bytes.
    exact List.mem_filter.mpr ⟨hl', decide_eq_true hnames⟩
  · have hok' := h.ok l' hl'
    exact hfree _ hok'.block_mem (h.base_ne hl' hl hnames) _ (hok'.has hi)
  · cases hmem
    rfl

/-- A write changes one byte. -/
theorem frame_write (x : ℕ) (v : UInt8) (hstep : s.step (.write x v) = .ok s') :
    AllocAction.Frame s (.write x v) s' := by
  cases hstep
  refine ⟨fun l hl hnames => ⟨hl, fun i hi => ?_⟩, fun _ hmem => (by cases hmem),
    fun _ _ heq => by cases heq⟩
  -- The byte that is written is of an allocation that the action names.
  have hne : l.ptr + i < x ∨ x < l.ptr + i := by
    by_contra heq
    exact hnames ⟨by omega, by omega⟩
  rcases hne with hlt | hgt
  · exact Mem.store_of_lt _ _ hlt
  · exact Mem.store_of_le _ hgt

/-- **The frame of a step**: one case for each action. -/
theorem frame (h : AllocInv s) (hallows : s.Allows action) (hstep : s.step action = .ok s') :
    action.Frame s s' := by
  cases action with
  | alloc _ _ => exact h.frame_alloc hallows hstep
  | realloc _ _ => exact h.frame_realloc hallows hstep
  | dealloc _ _ => exact h.frame_dealloc hallows hstep
  | write x v => exact frame_write x v hstep

/-! ### Refinement -/

/-- The store has the bytes of each allocation under its pointer. -/
theorem store_of_mem (h : AllocInv s) {l : Live} (hl : l ∈ s.live) :
    s.store l.ptr = some (l.bytes s.heap.mem) := by
  unfold AllocState.store
  rcases hfind : s.live.find? (·.ptr = l.ptr) with _ | l'
  · have hnone := List.find?_eq_none.mp hfind l hl
    simp at hnone
  · have hptr : l'.ptr = l.ptr := by simpa using List.find?_some hfind
    rw [hfind, Option.map_some, h.eq_of_ptr (List.mem_of_find?_eq_some hfind) hl hptr]

/-- What the action does not name is the same in the store. -/
theorem store_of_frame (h : AllocInv s) (h' : AllocInv s') (hframe : action.Frame s s') {q : ℕ}
    (hnames : ∀ l ∈ s.live, l.ptr = q → ¬ action.Names l)
    (hnew : ∀ l ∈ s'.live, l.ptr = q → l ∈ s.live) : s'.store q = s.store q := by
  by_cases hq : ∃ l ∈ s.live, l.ptr = q
  · obtain ⟨l, hl, rfl⟩ := hq
    obtain ⟨hl', hbytes⟩ := hframe.others l hl (hnames l hl rfl)
    rw [h.store_of_mem hl, h'.store_of_mem hl', Live.bytes, Live.bytes, Mem.load_congr hbytes]
  · have hq' : ¬ ∃ l ∈ s'.live, l.ptr = q := by
      rintro ⟨l, hl, hptr⟩
      exact hq ⟨l, hnew l hl hptr, hptr⟩
    rw [AllocState.store_eq_none hq, AllocState.store_eq_none hq']

/-- A new allocation has no pointer of the others. -/
theorem ptr_ne_of_cons {heap : Heap} {l : Live} {live : List Live}
    (h : AllocInv ⟨heap, l :: live⟩) :
    ∀ l' ∈ live, l'.ptr ≠ l.ptr := by
  intro l' hl' hptr
  have hapart := List.rel_of_pairwise_cons h.apart hl'
  exact (h.ok l List.mem_cons_self).not_apart (h.ok l' (List.mem_cons_of_mem _ hl'))
    (.inl hptr.symm) hapart

/-- `roc_alloc_fn` adds an entry to the store. -/
theorem store_alloc (h : AllocInv s) (h' : AllocInv s') {args : RocAlloc} {malloc : Answer}
    (hallows : s.Allows (.alloc args malloc)) (hstep : s.step (.alloc args malloc) = .ok s') :
    ∃ op, s.storeOp? (.alloc args malloc) = some op ∧ op.Step s.store s'.store := by
  have hframe := h.frame_alloc hallows hstep
  rcases hrun : rocAllocFn s.heap args malloc with ⟨answer, heap'⟩ | _ | _
  · rw [AllocState.step, hrun] at hstep
    cases hstep
    have hnew := h'.store_of_mem List.mem_cons_self
    set l : Live := ⟨answer, args.alignment, args.length⟩
    -- No live allocation starts where the new one does.
    have hfresh : ¬ ∃ l' ∈ s.live, l'.ptr = answer := by
      rintro ⟨l', hl', hptr⟩
      exact h'.ptr_ne_of_cons l' hl' hptr
    have hstore : AllocState.store ⟨heap', l :: s.live⟩ =
        Function.update s.store answer (some (l.bytes heap'.mem)) := by
      -- The new address holds the new bytes; elsewhere the frame applies.
      funext q
      by_cases hq : q = answer
      · subst hq
        rw [Function.update_self]
        exact hnew
      · rw [Function.update_of_ne hq]
        refine h.store_of_frame h' hframe (fun _ _ _ => id) fun l' hl' hptr => ?_
        rcases List.mem_cons.mp hl' with rfl | hl'
        · exact absurd hptr.symm hq
        · exact hl'
    have hlen : (l.bytes heap'.mem).length = args.length.toNat := Mem.length_load ..
    refine ⟨.alloc answer args.length.toNat, by rw [AllocState.storeOp?, hrun], ?_⟩
    rw [hstore, ← hlen]
    exact .alloc (AllocState.store_eq_none hfresh)
  · rw [AllocState.step, hrun] at hstep
    cases hstep
  · rw [AllocState.step, hrun] at hstep
    cases hstep

/-- The store after a `realloc`: the new allocation has come and the old one has gone. -/
theorem store_eq_of_realloc (h : AllocInv s) {heap' : Heap} {l' : Live} {args : RocRealloc}
    {realloc : Answer}
    (h' : AllocInv ⟨heap', l' :: s.live.filter (·.ptr ≠ args.answer)⟩)
    (hframe : AllocAction.Frame s (.realloc args realloc)
      ⟨heap', l' :: s.live.filter (·.ptr ≠ args.answer)⟩) :
    AllocState.store ⟨heap', l' :: s.live.filter (·.ptr ≠ args.answer)⟩ =
      Function.update (Function.update s.store args.answer none) l'.ptr
        (some (l'.bytes heap'.mem)) := by
  funext q
  by_cases hq : q = l'.ptr
  · subst hq
    rw [Function.update_self]
    exact h'.store_of_mem List.mem_cons_self
  rw [Function.update_of_ne hq]
  have hmem : ∀ l₁ ∈ l' :: s.live.filter (·.ptr ≠ args.answer), l₁.ptr = q →
      l₁ ∈ s.live ∧ l₁.ptr ≠ args.answer := by
    intro l₁ hl₁ hq₁
    rcases List.mem_cons.mp hl₁ with rfl | hl₁
    · exact absurd hq₁.symm hq
    · simpa using hl₁
  -- The old address is given up, any other is framed.
  by_cases hq' : q = args.answer
  · subst hq'
    rw [Function.update_self]
    apply AllocState.store_eq_none
    rintro ⟨l₁, hl₁, hq₁⟩
    exact (hmem l₁ hl₁ hq₁).2 hq₁
  · rw [Function.update_of_ne hq']
    exact h.store_of_frame h' hframe (fun l₁ _ hq₁ hnames => hq' (hq₁ ▸ hnames))
      fun l₁ hl₁ hq₁ => (hmem l₁ hl₁ hq₁).1

/-- `roc_realloc_fn` moves an entry, and keeps what the old and the new have in common. -/
theorem store_realloc (h : AllocInv s) (h' : AllocInv s') {args : RocRealloc} {realloc : Answer}
    (hallows : s.Allows (.realloc args realloc)) (hstep : s.step (.realloc args realloc) = .ok s') :
    ∃ op, s.storeOp? (.realloc args realloc) = some op ∧ op.Step s.store s'.store := by
  have hframe := h.frame_realloc hallows hstep
  obtain ⟨⟨l, hl, hptr, halign⟩, -⟩ := hallows
  obtain ⟨answer, hrun, -, hcommon⟩ := hframe.common args realloc rfl l hl hptr
  obtain ⟨heap', live'⟩ := s'
  rw [AllocState.step, hrun] at hstep
  cases hstep
  have hfresh := h'.ptr_ne_of_cons
  set l' : Live := ⟨answer, args.alignment, args.newLength⟩
  have hold : s.store args.answer = some (l.bytes s.heap.mem) := hptr ▸ h.store_of_mem hl
  have hlen : (l.bytes s.heap.mem).length = l.length.toNat := Mem.length_load ..
  have hlen' : (l'.bytes heap'.mem).length = args.newLength.toNat := Mem.length_load ..
  refine ⟨.realloc args.answer answer args.newLength.toNat,
    by rw [AllocState.storeOp?, hrun], ?_⟩
  rw [h.store_eq_of_realloc h' hframe, ← hlen']
  -- The pointer may stay; a new one is that of no other allocation.
  refine .realloc hold ?_ ?_
  · by_cases hanswer : answer = args.answer
    · exact .inl hanswer
    · refine .inr (AllocState.store_eq_none ?_)
      rintro ⟨l₁, hl₁, hq₁⟩
      refine hfresh l₁ (List.mem_filter.mpr ⟨hl₁, decide_eq_true ?_⟩) hq₁
      exact fun heq => hanswer (hq₁.symm.trans heq)
  · rw [hlen, hlen', Live.bytes, Live.bytes, Mem.take_load _ _ (Nat.min_le_right ..),
      Mem.take_load _ _ (Nat.min_le_left ..)]
    exact Mem.load_congr hcommon

/-- `roc_dealloc_fn` takes an entry out of the store. -/
theorem store_dealloc (h : AllocInv s) (h' : AllocInv s') {args : RocDealloc} {mem : Mem}
    (hallows : s.Allows (.dealloc args mem)) (hstep : s.step (.dealloc args mem) = .ok s') :
    ∃ op, s.storeOp? (.dealloc args mem) = some op ∧ op.Step s.store s'.store := by
  have hframe := h.frame_dealloc hallows hstep
  obtain ⟨⟨l, hl, hptr, halign⟩, -⟩ := hallows
  have hold : s.store args.ptr = some (l.bytes s.heap.mem) := hptr ▸ h.store_of_mem hl
  have hlive : s'.live = s.live.filter (·.ptr ≠ args.ptr) := by
    rw [AllocState.step] at hstep
    rcases hrun : rocDeallocFn s.heap args mem with heap' | _ | _ <;> rw [hrun] at hstep <;>
      cases hstep
    rfl
  have hstore : s'.store = Function.update s.store args.ptr none := by
    -- Nothing live starts at the freed address any more; elsewhere the frame applies.
    funext q
    have hmem : ∀ l₁ ∈ s'.live, l₁ ∈ s.live ∧ l₁.ptr ≠ args.ptr := by
      intro l₁ hl₁
      simpa [hlive] using hl₁
    by_cases hq : q = args.ptr
    · subst hq
      rw [Function.update_self]
      apply AllocState.store_eq_none
      rintro ⟨l₁, hl₁, hq₁⟩
      exact (hmem l₁ hl₁).2 hq₁
    · rw [Function.update_of_ne hq]
      exact h.store_of_frame h' hframe (fun l₁ _ hq₁ hnames => hq (hq₁ ▸ hnames))
        fun l₁ hl₁ _ => (hmem l₁ hl₁).1
  refine ⟨.dealloc args.ptr, rfl, ?_⟩
  rw [hstore]
  exact .dealloc hold

/-- A write changes a byte of one entry. -/
theorem store_write (h : AllocInv s) (h' : AllocInv s') {x : ℕ} {v : UInt8}
    (hallows : s.Allows (.write x v)) (hstep : s.step (.write x v) = .ok s') :
    ∃ op, s.storeOp? (.write x v) = some op ∧ op.Step s.store s'.store := by
  have hframe := frame_write x v hstep
  cases hstep
  rcases hfind : s.live.find? fun l => l.ptr ≤ x ∧ x < l.ptr + l.length.toNat with _ | l
  · obtain ⟨l, hl, hx⟩ := hallows
    exact absurd hx (by simpa using List.find?_eq_none.mp hfind l hl)
  have hl := List.mem_of_find?_eq_some hfind
  have hx : l.ptr ≤ x ∧ x < l.ptr + l.length.toNat := by simpa using List.find?_some hfind
  have hlen : (l.bytes s.heap.mem).length = l.length.toNat := Mem.length_load ..
  have hstore : AllocState.store ⟨⟨s.heap.blocks, s.heap.mem.store x [v]⟩, s.live⟩ =
      Function.update s.store l.ptr (some ((l.bytes s.heap.mem).set (x - l.ptr) v)) := by
    funext q
    by_cases hq : q = l.ptr
    · subst hq
      rw [Function.update_self, h'.store_of_mem hl, Live.bytes, Live.bytes,
        Mem.load_store_byte _ _ hx.1]
    · rw [Function.update_of_ne hq]
      refine h.store_of_frame h' hframe (fun l₁ hl₁ hq₁ hnames => hq ?_) fun l₁ hl₁ _ => hl₁
      -- Only one allocation has the address that is written to.
      have hhas := (h.ok l₁ hl₁).has_of_range ⟨Nat.le_trans (Nat.sub_le _ _) hnames.1, hnames.2⟩
      rw [← hq₁, h.eq_of_has hl₁ hl hhas ((h.ok l hl).has_of_range ⟨by omega, hx.2⟩)]
  refine ⟨.write l.ptr (x - l.ptr) v, by rw [AllocState.storeOp?, hfind, Option.map_some], ?_⟩
  rw [hstore]
  exact .write (h.store_of_mem hl) (by omega)

/-- **A step of the allocator is one of the store.** -/
theorem store_step (h : AllocInv s) (h' : AllocInv s') (hallows : s.Allows action)
    (hstep : s.step action = .ok s') :
    ∃ op, s.storeOp? action = some op ∧ op.Step s.store s'.store := by
  cases action with
  | alloc _ _ => exact h.store_alloc h' hallows hstep
  | realloc _ _ => exact h.store_realloc h' hallows hstep
  | dealloc _ _ => exact h.store_dealloc h' hallows hstep
  | write _ _ => exact h.store_write h' hallows hstep

/-- The actions of a run are operations on the store, unless the process ends. -/
theorem store_run (h : AllocInv s) {actions : List AllocAction} (hallows : s.AllowsAll actions) :
    s.run actions = .exit ∨
      ∃ s', s.run actions = .ok s' ∧ StoreOp.Run (s.storeOps actions) s.store s'.store := by
  induction actions generalizing s with
  | nil => exact .inr ⟨s, rfl, .nil⟩
  | cons action actions ih =>
    rw [AllocState.run, AllocState.storeOps]
    rcases h.step hallows.1 with hexit | ⟨s₁, hstep, hinv⟩
    · exact .inl (by rw [hexit])
    · obtain ⟨op, hop, hopStep⟩ := h.store_step hinv hallows.1 hstep
      rw [hstep, hop]
      rcases ih hinv (hallows.2 s₁ hstep) with hexit | ⟨s', hrun, htail⟩
      · exact .inl hexit
      · exact .inr ⟨s', hrun, .cons hopStep htail⟩

/-- An allocation that a run does not name has the same bytes after it, however often others grow,
shrink, come and go. -/
theorem run_frame (h : AllocInv s) {actions : List AllocAction} (hallows : s.AllowsAll actions)
    (hrun : s.run actions = .ok s') {p : ℕ} (hp : ∀ op ∈ s.storeOps actions, p ∉ op.keys) :
    s'.store p = s.store p := by
  rcases h.store_run hallows with hexit | ⟨s'', hok, hops⟩
  · rw [hexit] at hrun
    cases hrun
  · rw [hok] at hrun
    cases hrun
    exact hops.frame hp

/-- The state that an allowed run has come to is in order, and what comes next is allowed there. -/
theorem run_ok (h : AllocInv s) {before after : List AllocAction}
    (hallows : s.AllowsAll (before ++ after)) (hrun : s.run before = .ok s') :
    AllocInv s' ∧ s'.AllowsAll after := by
  induction before generalizing s with
  | nil =>
    cases hrun
    exact ⟨h, hallows⟩
  | cons action before ih =>
    obtain ⟨s₁, hstep, hrun⟩ := AllocState.run_cons_ok.mp hrun
    exact ih (h.step_ok hallows.1 hstep) (hallows.2 s₁ hstep) hrun

end AllocInv

/-- **The allocator is a store of byte strings.**  Whatever the program does, the process ends with
the host error or each call and each write has been an operation on the store of the live
allocations' bytes; and every one of them has left alone the bytes of the other allocations, written
its headers around the users' bytes, and kept what a reallocation keeps. -/
theorem AllocState.run_refines (mem : Mem) (actions : List AllocAction)
    (hallows : (init mem).AllowsAll actions) :
    ((init mem).run actions = .exit ∨
      ∃ s, (init mem).run actions = .ok s ∧
        StoreOp.Run ((init mem).storeOps actions) (fun _ => none) s.store) ∧
    ∀ before action after s s', actions = before ++ action :: after →
      (init mem).run before = .ok s → s.step action = .ok s' → action.Frame s s' := by
  have hinit := AllocInv.init mem
  refine ⟨hinit.store_run hallows, ?_⟩
  rintro before action after s s' rfl hrun hstep
  obtain ⟨hinv, hafter⟩ := hinit.run_ok hallows hrun
  exact hinv.frame hafter.1 hstep

theorem AllocState.run_refines_realloc :
    ((init fun _ => 0).run reallocActions = .exit ∨
      ∃ s, (init fun _ => 0).run reallocActions = .ok s ∧
        StoreOp.Run ((init fun _ => 0).storeOps reallocActions) (fun _ => none) s.store) ∧
    ∀ before action after s s', reallocActions = before ++ action :: after →
      (init fun _ => 0).run before = .ok s → s.step action = .ok s' → action.Frame s s' :=
  AllocState.run_refines (fun _ => 0) reallocActions reallocActions_allowed

end BasicCli
