import BasicCli.Memory.Basic

/-!
# C strings

A C string is known by its address and ends before the first NUL byte.
-/

namespace BasicCli.Memory

/-- The C string at `a`, if it ends within `fuel` bytes. -/
def cStr (m : Mem) : (fuel a : ℕ) → Option (List UInt8)
  | 0, _ => none
  | fuel + 1, a => if m a = 0 then some [] else (cStr m fuel (a + 1)).map (m a :: ·)

/-- At `a` are the bytes, none of them NUL, and a NUL behind them. -/
structure CStrAt (m : Mem) (a : ℕ) (bs : List UInt8) : Prop where
  load : m.load a (bs.length + 1) = bs ++ [0]
  nul_notMem : 0 ∉ bs

/-- A C string is read as the bytes that are there. -/
theorem CStrAt.cStr_eq {m : Mem} {a : ℕ} {bs : List UInt8} (h : CStrAt m a bs) {fuel : ℕ}
    (hfuel : bs.length < fuel) : cStr m fuel a = some bs := by
  obtain ⟨hload, hnul⟩ := h
  induction bs generalizing a fuel with
  | nil =>
    obtain ⟨fuel, rfl⟩ := Nat.exists_eq_add_of_lt hfuel
    have hzero : m a = 0 := (List.cons.inj hload).1
    rw [List.length_nil, Nat.zero_add, cStr, if_pos hzero]
  | cons b bs ih =>
    obtain ⟨fuel, rfl⟩ := Nat.exists_eq_add_of_lt hfuel
    obtain ⟨hb, hrest⟩ := List.cons.inj hload
    rw [List.mem_cons, not_or] at hnul
    have hne : m a ≠ 0 := by
      rw [hb]
      exact Ne.symm hnul.1
    rw [cStr, if_neg hne, ih (by rw [List.length_cons]; omega) hrest hnul.2, hb]
    rfl

end BasicCli.Memory
