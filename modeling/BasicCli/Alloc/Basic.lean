import BasicCli.Memory.Heap
import Mathlib.Data.Nat.Log

/-!
# The host's allocator

`roc_alloc_fn`, `roc_dealloc_fn` and `roc_realloc_fn` of `src/lib.rs`, over `malloc`, `free` and
`realloc`, and the runs of a program that calls them and writes to what it has been given
(`AllocState.run`).  A `usize` is a number below `2 ^ 64`.
-/

namespace BasicCli

open Memory

/-! ### `usize` -/

/-- `usize::MAX`. -/
def usizeMax : ℕ := 2 ^ 64 - 1

/-- `usize::saturating_add`. -/
def saturatingAdd (a b : ℕ) : ℕ := min (a + b) usizeMax

/-- `usize::next_power_of_two`, which wraps beyond the largest one. -/
def nextPowerOfTwo (n : ℕ) : ℕ := if n ≤ 2 ^ 63 then 2 ^ Nat.clog 2 n else 0

/-- A `usize` in memory. -/
def readUsize (m : Mem) (a : ℕ) : ℕ := ofLeBytes (m.load a 8)

/-- The memory after a `usize` has been written to it. -/
def writeUsize (m : Mem) (a v : ℕ) : Mem := m.store a (toLeBytes 8 v)

/-! ### The host's functions -/

/-- What a host function does: it returns, ends the process with the host error, or does something
that has no defined meaning. -/
inductive Outcome (α : Type)
  | ok (a : α)
  | exit
  | undefined

/-- The arguments of `roc_alloc_fn`. -/
structure RocAlloc where
  alignment : UInt64
  length : UInt64

/-- The arguments of `roc_dealloc_fn`. -/
structure RocDealloc where
  ptr : ℕ
  alignment : UInt64

/-- The arguments of `roc_realloc_fn`; `answer` is the old pointer. -/
structure RocRealloc where
  alignment : UInt64
  newLength : UInt64
  answer : ℕ

/-- The number of bytes before the user's, `size_storage_bytes`: the alignment, at least that of a
`usize`, rounded up to a power of two. -/
def sizeStorageBytes (alignment : UInt64) : ℕ :=
  let alignment := max alignment.toNat 1
  let minAlignment := max alignment 8
  nextPowerOfTwo minAlignment

/-- The number of bytes asked of libc, `total_size` and `new_total_size`. -/
def totalSize (alignment length : UInt64) : ℕ :=
  max (saturatingAdd length.toNat (sizeStorageBytes alignment)) 1

/-- `roc_alloc_fn`, with `malloc`'s answer: the answer to Roc and the heap. -/
def rocAllocFn (heap : Heap) (args : RocAlloc) (malloc : Answer) : Outcome (ℕ × Heap) :=
  -- the sanity check, which `roc_realloc_fn` does not make
  if args.length.toNat > 1024 * 1024 * 1024 then .exit
  else
    let sizeStorageBytes := sizeStorageBytes args.alignment
    let totalSize := totalSize args.alignment args.length
    let heap := heap.malloc totalSize malloc
    let basePtr := malloc.base
    if basePtr = 0 then .exit
    else
      -- the last word of the header, right before the user's bytes
      let mem := writeUsize heap.mem (basePtr + (sizeStorageBytes - 8)) totalSize
      let mem := if sizeStorageBytes ≥ 2 * 8 then writeUsize mem basePtr sizeStorageBytes else mem
      .ok (basePtr + sizeStorageBytes, { heap with mem })

/-- `roc_dealloc_fn`, with the memory after `free`. -/
def rocDeallocFn (heap : Heap) (args : RocDealloc) (mem : Mem) : Outcome Heap :=
  -- The header is not read: its size is found again from the alignment.
  let sizeStorageBytes := sizeStorageBytes args.alignment
  let basePtr := args.ptr - sizeStorageBytes
  match heap.free basePtr mem with
  | some heap => .ok heap
  | none => .undefined

/-- `roc_realloc_fn`, with `realloc`'s answer: the answer to Roc and the heap. -/
def rocReallocFn (heap : Heap) (args : RocRealloc) (realloc : Answer) : Outcome (ℕ × Heap) :=
  let sizeStorageBytes := sizeStorageBytes args.alignment
  let oldBasePtr := args.answer - sizeStorageBytes
  let newTotalSize := totalSize args.alignment args.newLength
  match heap.realloc oldBasePtr newTotalSize realloc with
  | none => .undefined
  | some heap =>
    let newBasePtr := realloc.base
    if newBasePtr = 0 then .exit
    else
      -- The first word of a longer header is left to what `realloc` has copied.
      let mem := writeUsize heap.mem (newBasePtr + (sizeStorageBytes - 8)) newTotalSize
      .ok (newBasePtr + sizeStorageBytes, { heap with mem })

/-! ### Runs -/

/-- An allocation that the program has been given and not given back. -/
structure Live where
  ptr : ℕ
  alignment : UInt64
  length : UInt64
deriving DecidableEq, Repr

/-- The heap and the live allocations of the program. -/
structure AllocState where
  heap : Heap
  live : List Live

/-- What a program does: it calls a host function, where libc gives the answer that comes with the
call, or writes a byte. -/
inductive AllocAction
  | alloc (args : RocAlloc) (malloc : Answer)
  | realloc (args : RocRealloc) (realloc : Answer)
  | dealloc (args : RocDealloc) (mem : Mem)
  | write (x : ℕ) (v : UInt8)

namespace AllocState

/-- Nothing is allocated. -/
def init (mem : Mem) : AllocState := ⟨⟨[], mem⟩, []⟩

/-- One action. -/
def step (s : AllocState) : AllocAction → Outcome AllocState
  | .alloc args malloc =>
    match rocAllocFn s.heap args malloc with
    | .ok (answer, heap) => .ok ⟨heap, ⟨answer, args.alignment, args.length⟩ :: s.live⟩
    | .exit => .exit
    | .undefined => .undefined
  | .realloc args realloc =>
    match rocReallocFn s.heap args realloc with
    | .ok (answer, heap) =>
      .ok ⟨heap, ⟨answer, args.alignment, args.newLength⟩ :: s.live.filter (·.ptr ≠ args.answer)⟩
    | .exit => .exit
    | .undefined => .undefined
  | .dealloc args mem =>
    match rocDeallocFn s.heap args mem with
    | .ok heap => .ok ⟨heap, s.live.filter (·.ptr ≠ args.ptr)⟩
    | .exit => .exit
    | .undefined => .undefined
  | .write x v => .ok { s with heap := { s.heap with mem := s.heap.mem.store x [v] } }

/-- The program may do this: it names a live pointer with the alignment it was allocated with, or
writes to what it has been given; and libc does as it promises. -/
def Allows (s : AllocState) : AllocAction → Prop
  | .alloc args malloc =>
    args.alignment.toNat ≤ 2 ^ 63 ∧
    s.heap.MallocMeets (totalSize args.alignment args.length) malloc
  | .realloc args realloc =>
    (∃ l ∈ s.live, l.ptr = args.answer ∧ l.alignment = args.alignment) ∧
    s.heap.ReallocMeets (args.answer - sizeStorageBytes args.alignment)
      (totalSize args.alignment args.newLength) realloc
  | .dealloc args mem =>
    (∃ l ∈ s.live, l.ptr = args.ptr ∧ l.alignment = args.alignment) ∧
    s.heap.FreeMeets (args.ptr - sizeStorageBytes args.alignment) mem
  | .write x _ => ∃ l ∈ s.live, l.ptr ≤ x ∧ x < l.ptr + l.length.toNat

/-- Some actions, up to the first that does not return. -/
def run (s : AllocState) : List AllocAction → Outcome AllocState
  | [] => .ok s
  | action :: actions =>
    match s.step action with
    | .ok s => s.run actions
    | .exit => .exit
    | .undefined => .undefined

/-- The program may do all of these one after the other. -/
def AllowsAll (s : AllocState) : List AllocAction → Prop
  | [] => True
  | action :: actions => s.Allows action ∧ ∀ s', s.step action = .ok s' → s'.AllowsAll actions

end AllocState

end BasicCli
