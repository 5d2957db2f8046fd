import Mathlib.Data.List.Basic
import Mathlib.Logic.Function.Basic

/-!
# Byte strings by keys

What an allocator is for: it keeps a byte string for every key that it has handed out.  `Step` says
what an operation may do to the byte strings, and `Step.frame` and `Run.frame` that it leaves alone
what it does not name.
-/

namespace BasicCli.Memory

variable {κ : Type*} [DecidableEq κ]

/-- The byte strings that are kept, by their keys. -/
abbrev ByteStore (κ : Type*) := κ → Option (List UInt8)

/-- What is done to a store. -/
inductive StoreOp (κ : Type*)
  /-- `n` bytes under the new key `k` -/
  | alloc (k : κ) (n : ℕ)
  /-- `n` bytes under `k'` instead of those under `k` -/
  | realloc (k k' : κ) (n : ℕ)
  /-- the key is given back -/
  | dealloc (k : κ)
  /-- the byte at the offset `i` becomes `v` -/
  | write (k : κ) (i : ℕ) (v : UInt8)

namespace StoreOp

/-- The keys that an operation is about. -/
def keys : StoreOp κ → List κ
  | alloc k _ => [k]
  | realloc k k' _ => [k, k']
  | dealloc k => [k]
  | write k _ _ => [k]

/-- An operation on a store.  New bytes have any contents, but those that old and new byte string of
a `realloc` have in common stay. -/
inductive Step : StoreOp κ → ByteStore κ → ByteStore κ → Prop
  | alloc {σ : ByteStore κ} {k : κ} {bs : List UInt8} (fresh : σ k = none) :
    Step (.alloc k bs.length) σ (Function.update σ k (some bs))
  | realloc {σ : ByteStore κ} {k k' : κ} {bs bs' : List UInt8} (live : σ k = some bs)
      (fresh : k' = k ∨ σ k' = none)
      (kept : bs'.take (min bs.length bs'.length) = bs.take (min bs.length bs'.length)) :
    Step (.realloc k k' bs'.length) σ
      (Function.update (Function.update σ k none) k' (some bs'))
  | dealloc {σ : ByteStore κ} {k : κ} {bs : List UInt8} (live : σ k = some bs) :
    Step (.dealloc k) σ (Function.update σ k none)
  | write {σ : ByteStore κ} {k : κ} {bs : List UInt8} {i : ℕ} {v : UInt8} (live : σ k = some bs)
      (inside : i < bs.length) :
    Step (.write k i v) σ (Function.update σ k (some (bs.set i v)))

/-- Some operations, one after the other. -/
inductive Run : List (StoreOp κ) → ByteStore κ → ByteStore κ → Prop
  | nil {σ : ByteStore κ} : Run [] σ σ
  | cons {op : StoreOp κ} {ops : List (StoreOp κ)} {σ σ₁ σ₂ : ByteStore κ} (head : op.Step σ σ₁)
      (tail : Run ops σ₁ σ₂) : Run (op :: ops) σ σ₂

/-- An operation leaves alone what it does not name. -/
theorem Step.frame {op : StoreOp κ} {σ σ' : ByteStore κ} (h : op.Step σ σ') {k : κ}
    (hk : k ∉ op.keys) : σ' k = σ k := by
  cases h with
  | alloc _ => exact Function.update_of_ne (by simpa [keys] using hk) _ _
  | realloc _ _ _ =>
    simp only [keys, List.mem_cons, List.not_mem_nil, or_false, not_or] at hk
    rw [Function.update_of_ne hk.2, Function.update_of_ne hk.1]
  | dealloc _ => exact Function.update_of_ne (by simpa [keys] using hk) _ _
  | write _ _ => exact Function.update_of_ne (by simpa [keys] using hk) _ _

/-- Operations leave alone what none of them names. -/
theorem Run.frame {ops : List (StoreOp κ)} {σ σ' : ByteStore κ} (h : Run ops σ σ') {k : κ}
    (hk : ∀ op ∈ ops, k ∉ op.keys) : σ' k = σ k := by
  induction h with
  | nil => rfl
  | cons head _ ih =>
    rw [ih fun op hop => hk op (List.mem_cons_of_mem _ hop)]
    exact head.frame (hk _ List.mem_cons_self)

end StoreOp

end BasicCli.Memory
