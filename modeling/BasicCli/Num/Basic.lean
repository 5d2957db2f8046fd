import Mathlib.Algebra.Order.Ring.Int

/-!
# Numbers of Roc

The operators of Roc on integers of 64 bits.  A result that there is no room for crashes the
program.
-/

namespace BasicCli

/-- How a program crashes by its arithmetic. -/
inductive Crash
  | integerOverflow
deriving DecidableEq, Repr

namespace Num

/-- `Num.add` of two `U64`s. -/
def addU64 (x y : UInt64) : Except Crash UInt64 :=
  if x.toNat + y.toNat < 2 ^ 64 then .ok (x + y) else .error .integerOverflow

/-- `Num.sub` of two `U64`s. -/
def subU64 (x y : UInt64) : Except Crash UInt64 :=
  if y ≤ x then .ok (x - y) else .error .integerOverflow

/-- An `I64`, if there is one. -/
def checkI64 (n : ℤ) : Except Crash Int64 :=
  if -2 ^ 63 ≤ n ∧ n < 2 ^ 63 then .ok (.ofInt n) else .error .integerOverflow

/-- `Num.add` of two `I64`s. -/
def addI64 (x y : Int64) : Except Crash Int64 := checkI64 (x.toInt + y.toInt)

/-- `Num.sub` of two `I64`s. -/
def subI64 (x y : Int64) : Except Crash Int64 := checkI64 (x.toInt - y.toInt)

/-! ### Results with room -/

theorem addU64_of_lt {x y : UInt64} (h : x.toNat + y.toNat < 2 ^ 64) : addU64 x y = .ok (x + y) :=
  if_pos h

/-- Numbers are added as numbers, where the sum has room. -/
theorem addU64_ofNat {m n : ℕ} (h : m + n < 2 ^ 64) :
    addU64 (.ofNat m) (.ofNat n) = .ok (.ofNat (m + n)) := by
  have hm : (UInt64.ofNat m).toNat = m := UInt64.toNat_ofNat_of_lt' (by
    show m < 2 ^ 64
    omega)
  have hn : (UInt64.ofNat n).toNat = n := UInt64.toNat_ofNat_of_lt' (by
    show n < 2 ^ 64
    omega)
  rw [addU64_of_lt (by rwa [hm, hn]), UInt64.ofNat_add]

theorem subU64_ofNat {m n : ℕ} (hle : n ≤ m) (hm : m < 2 ^ 64) :
    subU64 (.ofNat m) (.ofNat n) = .ok (.ofNat (m - n)) := by
  have hle' : UInt64.ofNat n ≤ UInt64.ofNat m := by
    rw [UInt64.le_iff_toNat_le, UInt64.toNat_ofNat_of_lt' (Nat.lt_of_le_of_lt hle hm),
      UInt64.toNat_ofNat_of_lt' hm]
    exact hle
  rw [subU64, if_pos hle', UInt64.ofNat_sub hle]

theorem checkI64_of_bounds {n : ℤ} (hlow : -2 ^ 63 ≤ n) (hhigh : n < 2 ^ 63) :
    ∃ x, checkI64 n = .ok x ∧ x.toInt = n := by
  refine ⟨.ofInt n, if_pos ⟨hlow, hhigh⟩, ?_⟩
  exact Int64.toInt_ofInt_of_le hlow hhigh

end Num

end BasicCli
