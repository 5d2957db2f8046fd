import BasicCli.Memory.Basic

/-!
# A heap

`malloc`, `realloc` and `free` by the blocks they have handed out.  Where a new block lies and what
the bytes outside the blocks become is the heap's own choice, an `Answer`; `MallocMeets`,
`ReallocMeets` and `FreeMeets` are what it promises.  `realloc` and `free` of anything but the base
of an allocated block are undefined.
-/

namespace BasicCli.Memory

/-- A block of `size` bytes. -/
structure Block where
  base : ℕ
  size : ℕ
deriving DecidableEq, Repr

namespace Block

/-- The address `x` is in the block. -/
def Has (b : Block) (x : ℕ) : Prop := b.base ≤ x ∧ x < b.base + b.size

/-- The blocks have no address in common. -/
def Apart (b c : Block) : Prop := b.base + b.size ≤ c.base ∨ c.base + c.size ≤ b.base

theorem Apart.symm {b c : Block} (h : b.Apart c) : c.Apart b := Or.symm h

theorem Apart.not_has {b c : Block} (h : b.Apart c) {x : ℕ} (hx : b.Has x) : ¬ c.Has x := by
  rintro ⟨h₁, h₂⟩
  obtain ⟨h₃, h₄⟩ := hx
  rcases h with h | h <;> omega

end Block

/-- The blocks that are allocated, and the memory. -/
structure Heap where
  blocks : List Block
  mem : Mem

/-- What `malloc` or `realloc` answers, `0` for null, and the memory after it. -/
structure Answer where
  base : ℕ
  mem : Mem

namespace Heap

/-- The memory `mem` has the bytes of every allocated block but those that `except` says. -/
def Keeps (h : Heap) (except : Block → Prop) (mem : Mem) : Prop :=
  ∀ b ∈ h.blocks, ¬ except b → ∀ x, b.Has x → mem x = h.mem x

/-- A block of `size` bytes at `base` is apart from every allocated block but those that `except`
says, and the address behind it exists. -/
structure Fresh (h : Heap) (except : Block → Prop) (base size : ℕ) : Prop where
  apart : ∀ b ∈ h.blocks, ¬ except b → b.Apart ⟨base, size⟩
  noWrap : base + size < 2 ^ 64

/-! ### `malloc` -/

/-- `malloc` after it has answered. -/
def malloc (h : Heap) (size : ℕ) (answer : Answer) : Heap :=
  ⟨if answer.base = 0 then h.blocks else ⟨answer.base, size⟩ :: h.blocks, answer.mem⟩

/-- What `malloc` promises. -/
structure MallocMeets (h : Heap) (size : ℕ) (answer : Answer) : Prop where
  keeps : h.Keeps (fun _ => False) answer.mem
  fresh : answer.base ≠ 0 → h.Fresh (fun _ => False) answer.base size

/-! ### `realloc` -/

/-- `realloc` of the block at `old` after it has answered. -/
def realloc (h : Heap) (old size : ℕ) (answer : Answer) : Option Heap :=
  if ∃ b ∈ h.blocks, b.base = old then
    some ⟨if answer.base = 0 then h.blocks
      else ⟨answer.base, size⟩ :: h.blocks.filter (·.base ≠ old), answer.mem⟩
  else none

/-- What `realloc` promises. -/
structure ReallocMeets (h : Heap) (old size : ℕ) (answer : Answer) : Prop where
  keeps : h.Keeps (fun b => b.base = old ∧ answer.base ≠ 0) answer.mem
  fresh : answer.base ≠ 0 → h.Fresh (fun b => b.base = old) answer.base size
  copies : answer.base ≠ 0 → ∀ b ∈ h.blocks, b.base = old → ∀ i, i < b.size → i < size →
    answer.mem (answer.base + i) = h.mem (old + i)

/-! ### `free` -/

/-- `free` of the block at `base`, with the memory after it. -/
def free (h : Heap) (base : ℕ) (mem : Mem) : Option Heap :=
  if ∃ b ∈ h.blocks, b.base = base then some ⟨h.blocks.filter (·.base ≠ base), mem⟩ else none

/-- What `free` promises. -/
def FreeMeets (h : Heap) (base : ℕ) (mem : Mem) : Prop := h.Keeps (fun b => b.base = base) mem

end Heap

end BasicCli.Memory
