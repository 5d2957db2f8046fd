import Mathlib.Algebra.Group.Nat.Defs
import Mathlib.Data.List.Basic

/-!
# Memory

Memory as a function from addresses to bytes, with loads and stores of byte strings and the
little-endian bytes of numbers.  `load_store_self` and `load_store_of_apart` say what a load finds
after a store.
-/

namespace BasicCli.Memory

/-- The bytes at all addresses. -/
abbrev Mem := ℕ → UInt8

namespace Mem

/-- The `n` bytes from `a` on. -/
def load (m : Mem) : (a n : ℕ) → List UInt8
  | _, 0 => []
  | a, n + 1 => m a :: m.load (a + 1) n

/-- The memory after the bytes `bs` have been stored from `a` on. -/
def store (m : Mem) (a : ℕ) (bs : List UInt8) : Mem :=
  fun x => if a ≤ x then (bs[x - a]?).getD (m x) else m x

/-! ### Loads and stores -/

variable {m m' : Mem} {a b n k : ℕ} {bs : List UInt8}

@[simp]
theorem length_load (m : Mem) (a n : ℕ) : (m.load a n).length = n := by
  induction n generalizing a with
  | zero => rfl
  | succ n ih => rw [load, List.length_cons, ih]

theorem getElem_load (m : Mem) (a n : ℕ) {i : ℕ} (h : i < (m.load a n).length) :
    (m.load a n)[i] = m (a + i) := by
  induction n generalizing a i with
  | zero => cases h
  | succ n ih =>
    cases i with
    | zero => rfl
    | succ i =>
      have hi : i < (m.load (a + 1) n).length := Nat.lt_of_succ_lt_succ h
      show (m.load (a + 1) n)[i] = m (a + (i + 1))
      rw [ih (a + 1) hi, Nat.succ_add_eq_add_succ]

/-- A load sees only the bytes it reads. -/
theorem load_congr (h : ∀ i < n, m' (a + i) = m (b + i)) : m'.load a n = m.load b n := by
  apply List.ext_getElem (by rw [length_load, length_load])
  intro i hi hi'
  rw [length_load] at hi
  rw [getElem_load, getElem_load, h i hi]

theorem store_of_lt (m : Mem) (bs : List UInt8) {x : ℕ} (h : x < a) : m.store a bs x = m x := by
  rw [store, if_neg (by omega)]

theorem store_of_le (m : Mem) {x : ℕ} (h : a + bs.length ≤ x) : m.store a bs x = m x := by
  rw [store]
  split_ifs
  · rw [List.getElem?_eq_none (by omega), Option.getD_none]
  · rfl

theorem store_apply (m : Mem) (a : ℕ) {i : ℕ} (h : i < bs.length) :
    m.store a bs (a + i) = bs[i] := by
  rw [store, if_pos (by omega), Nat.add_sub_cancel_left, List.getElem?_eq_getElem h,
    Option.getD_some]

theorem take_load (m : Mem) (a : ℕ) {k n : ℕ} (h : k ≤ n) : (m.load a n).take k = m.load a k := by
  apply List.ext_getElem
  · rw [List.length_take, length_load, length_load, Nat.min_eq_left h]
  · intro i _ _
    rw [List.getElem_take, getElem_load, getElem_load]

theorem load_store_self (m : Mem) (a : ℕ) (bs : List UInt8) :
    (m.store a bs).load a bs.length = bs := by
  apply List.ext_getElem (length_load _ _ _)
  intro i hi hi'
  rw [getElem_load, store_apply m a hi']

/-- A store does not change what is loaded from elsewhere. -/
theorem load_store_of_apart (m : Mem) (h : b + n ≤ a ∨ a + bs.length ≤ b) :
    (m.store a bs).load b n = m.load b n := by
  apply load_congr
  intro i hi
  rcases h with h | h
  · exact store_of_lt m bs (by omega)
  · exact store_of_le m (by omega)

/-- What is loaded from around a byte that has been stored. -/
theorem load_store_byte (m : Mem) {x : ℕ} (v : UInt8) (h : a ≤ x) :
    (m.store x [v]).load a n = (m.load a n).set (x - a) v := by
  apply List.ext_getElem (by simp)
  intro i hi _
  rw [getElem_load, List.getElem_set]
  split_ifs with hx
  · obtain rfl : a + i = x := by omega
    exact store_apply m (a + i) (by simp : 0 < [v].length)
  · rw [getElem_load]
    rcases Nat.lt_or_ge (a + i) x with hlt | hge
    · exact store_of_lt m _ hlt
    · have hlt : x + [v].length ≤ a + i := by
        rw [List.length_singleton]
        omega
      exact store_of_le m hlt

end Mem

/-! ### Numbers -/

/-- The `n` lowest bytes of a number, the lowest first. -/
def toLeBytes : (n v : ℕ) → List UInt8
  | 0, _ => []
  | n + 1, v => .ofNat v :: toLeBytes n (v / 256)

/-- The number with the given bytes, the lowest first. -/
def ofLeBytes : List UInt8 → ℕ
  | [] => 0
  | b :: bs => b.toNat + 256 * ofLeBytes bs

@[simp]
theorem length_toLeBytes (n v : ℕ) : (toLeBytes n v).length = n := by
  induction n generalizing v with
  | zero => rfl
  | succ n ih => rw [toLeBytes, List.length_cons, ih]

theorem ofLeBytes_toLeBytes {n v : ℕ} (h : v < 256 ^ n) : ofLeBytes (toLeBytes n v) = v := by
  induction n generalizing v with
  | zero => rw [toLeBytes, ofLeBytes]; omega
  | succ n ih =>
    have hdiv : v / 256 < 256 ^ n := Nat.div_lt_of_lt_mul (by rwa [Nat.pow_succ'] at h)
    rw [toLeBytes, ofLeBytes, ih hdiv, UInt8.toNat_ofNat', Nat.mod_add_div]

end BasicCli.Memory
