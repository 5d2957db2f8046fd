import Mathlib.Data.List.Count
import Mathlib.Data.List.Perm.Basic

/-!
# Multi-maps

A list of keys with values, read as a multi-map: a key has the values that stand beside it, in their
order (`values`).  Lists that are the same multi-map (`Same`) may differ in how the entries of
different keys are interleaved, and in nothing else (`Same.perm`).
-/

namespace BasicCli.Multimap

variable {κ α β : Type} [DecidableEq κ]

/-- The values of `k`. -/
def values (k : κ) (l : List (κ × α)) : List α := (l.filter fun e => e.1 = k).map Prod.snd

variable {k k' : κ} {l l' m m' : List (κ × α)} {v : α}

@[simp]
theorem values_nil : values k ([] : List (κ × α)) = [] := rfl

@[simp]
theorem values_cons_self : values k ((k, v) :: l) = v :: values k l := by
  rw [values, List.filter_cons_of_pos (by simp)]
  rfl

theorem values_cons_of_ne (h : k' ≠ k) : values k ((k', v) :: l) = values k l := by
  rw [values, List.filter_cons_of_neg (by simp [h])]
  rfl

@[simp]
theorem values_append : values k (l ++ m) = values k l ++ values k m := by
  rw [values, List.filter_append, List.map_append]
  rfl

theorem values_map (f : α → β) (l : List (κ × α)) :
    values k (l.map fun e => (e.1, f e.2)) = (values k l).map f := by
  induction l with
  | nil => rfl
  | cons e l ih =>
    obtain ⟨k', v⟩ := e
    by_cases h : k' = k
    · subst h
      rw [List.map_cons, values_cons_self, values_cons_self, List.map_cons, ih]
    · rw [List.map_cons, values_cons_of_ne h, values_cons_of_ne h, ih]

/-- A key without values is no key of the list. -/
theorem values_eq_nil_iff : values k l = [] ↔ ∀ e ∈ l, e.1 ≠ k := by
  rw [values, List.map_eq_nil_iff, List.filter_eq_nil_iff]
  simp

/-! ### Lists that are the same multi-map -/

/-- Each key has the same values in both. -/
def Same (l m : List (κ × α)) : Prop := ∀ k, values k l = values k m

namespace Same

theorem refl (l : List (κ × α)) : Same l l := fun _ => rfl

theorem trans {n : List (κ × α)} (h : Same l m) (h' : Same m n) : Same l n := fun k =>
  (h k).trans (h' k)

theorem append (h : Same l l') (h' : Same m m') : Same (l ++ m) (l' ++ m') := by
  intro k
  rw [values_append, values_append, h k, h' k]

theorem map (f : α → β) (h : Same l m) :
    Same (l.map fun e => (e.1, f e.2)) (m.map fun e => (e.1, f e.2)) := by
  intro k
  rw [values_map, values_map, h k]

theorem perm (h : Same l m) : l.Perm m := by
  classical
  -- An entry occurs as often as its value does among those of its key.
  have hcount : ∀ (n : List (κ × α)) (e : κ × α), n.count e = (values e.1 n).count e.2 := by
    intro n e
    induction n with
    | nil => rfl
    | cons e' n ih =>
      obtain ⟨k, v⟩ := e
      obtain ⟨k', v'⟩ := e'
      by_cases hk : k' = k
      · subst hk
        rw [values_cons_self, List.count_cons, List.count_cons, ih]
        simp
      · rw [values_cons_of_ne hk, List.count_cons_of_ne (by simp [hk]), ih]
  exact List.perm_iff_count.mpr fun e => by rw [hcount, hcount, h e.1]

theorem length_eq (h : Same l m) : l.length = m.length := h.perm.length_eq

end Same

end BasicCli.Multimap
