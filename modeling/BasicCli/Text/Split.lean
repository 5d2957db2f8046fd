import Mathlib.Data.List.Basic

/-!
# Splitting lists

What splitting a list at each occurrence of an element gives.
-/

namespace BasicCli.Text

variable {α : Type} [DecidableEq α] {a : α}

theorem splitOn_append_of_notMem {xs : List α} (h : a ∉ xs) (ys : List α) :
    (xs ++ ys).splitOn a = (ys.splitOn a).modifyHead (xs ++ ·) := by
  induction xs with
  | nil =>
    rw [List.nil_append]
    exact (congrFun List.modifyHead_id (ys.splitOn a)).symm
  | cons x xs ih =>
    obtain ⟨hx, hxs⟩ := not_or.mp (mt List.mem_cons.mpr h)
    rw [List.cons_append, List.splitOn_cons_eq_if_modifyHead, if_neg (by simpa using Ne.symm hx),
      ih hxs, List.modifyHead_modifyHead]
    rfl

/-- What is before and what is behind the first occurrence. -/
theorem append_cons_inj {xs xs' ys ys' : List α} (hxs : a ∉ xs) (hys : a ∉ ys) :
    xs ++ a :: xs' = ys ++ a :: ys' ↔ xs = ys ∧ xs' = ys' := by
  have htake : ∀ {zs zs' : List α}, a ∉ zs → (zs ++ a :: zs').takeWhile (· ≠ a) = zs := by
    intro zs zs' hzs
    have hpos : ∀ z ∈ zs, decide (z ≠ a) = true := by
      rintro z hz
      exact decide_eq_true (ne_of_mem_of_not_mem hz hzs)
    rw [List.takeWhile_append_of_pos hpos, List.takeWhile_cons_of_neg (by simp), List.append_nil]
  constructor
  · intro h
    have heq : xs = ys := by rw [← htake hxs, h, htake hys]
    subst heq
    exact ⟨rfl, (List.cons.inj (List.append_cancel_left h)).2⟩
  · rintro ⟨rfl, rfl⟩
    rfl

/-- The first piece ends before the first occurrence. -/
theorem splitOn_eq_cons (a : α) (l : List α) :
    ∃ pieces, l.splitOn a = l.takeWhile (· ≠ a) :: pieces := by
  induction l with
  | nil => exact ⟨[], rfl⟩
  | cons x l ih =>
    rw [List.splitOn_cons_eq_if_modifyHead]
    by_cases h : x = a
    · rw [if_pos (by simpa using h), List.takeWhile_cons_of_neg (by simpa using h)]
      exact ⟨_, rfl⟩
    · obtain ⟨pieces, hpieces⟩ := ih
      rw [if_neg (by simpa using h), List.takeWhile_cons_of_pos (by simpa using h), hpieces]
      exact ⟨pieces, rfl⟩

/-- The pieces of lists joined by `a` are those of each of them. -/
theorem splitOn_intercalate_flatMap (a : α) {ls : List (List α)} (hls : ls ≠ []) :
    ([a].intercalate ls).splitOn a = ls.flatMap (·.splitOn a) := by
  induction ls with
  | nil => exact absurd rfl hls
  | cons l ls ih =>
    cases ls with
    | nil => simp
    | cons l' ls =>
      rw [List.intercalate_cons_cons, List.append_assoc, List.singleton_append,
        List.splitOn_append_cons_self, ih (List.cons_ne_nil _ _)]
      rfl

/-- What is in a piece. -/
theorem mem_of_mem_splitOn {l s : List α} (hl : l ∈ s.splitOn a) {x : α} (hx : x ∈ l) :
    x ≠ a ∧ x ∈ s := by
  induction s generalizing l with
  | nil =>
    rw [List.splitOn_nil, List.mem_singleton] at hl
    subst hl
    cases hx
  | cons y s ih =>
    rw [List.splitOn_cons_eq_if_modifyHead] at hl
    have hmem {l : List α} (hl : l ∈ s.splitOn a) (hx : x ∈ l) : x ≠ a ∧ x ∈ y :: s :=
      (ih hl hx).imp_right (List.mem_cons_of_mem y)
    -- A separator starts a new piece, anything else joins the first.
    by_cases hy : y = a
    · rw [if_pos (by simpa using hy)] at hl
      rcases List.mem_cons.mp hl with rfl | hl
      · cases hx
      · exact hmem hl hx
    · rw [if_neg (by simpa using hy)] at hl
      obtain ⟨piece, pieces, hpieces⟩ := List.exists_cons_of_ne_nil (List.splitOn_ne_nil a s)
      rw [hpieces] at hl hmem
      rcases List.mem_cons.mp hl with rfl | hl
      · rcases List.mem_cons.mp hx with rfl | hx
        · exact ⟨hy, List.mem_cons_self⟩
        · exact hmem List.mem_cons_self hx
      · exact hmem (List.mem_cons_of_mem piece hl) hx

omit [DecidableEq α] in
/-- What is in joined lists. -/
theorem mem_intercalate {ls : List (List α)} {x : α} (hx : x ∈ [a].intercalate ls) :
    x = a ∨ ∃ l ∈ ls, x ∈ l := by
  induction ls with
  | nil => cases hx
  | cons l ls ih =>
    cases ls with
    | nil =>
      rw [List.intercalate_singleton] at hx
      exact .inr ⟨l, List.mem_cons_self, hx⟩
    | cons l' ls =>
      rw [List.intercalate_cons_cons, List.mem_append, List.mem_append, List.mem_singleton] at hx
      rcases hx with (hx | rfl) | hx
      · exact .inr ⟨l, List.mem_cons_self, hx⟩
      · exact .inl rfl
      · refine (ih hx).imp_right ?_
        rintro ⟨m, hm, hxm⟩
        exact ⟨m, List.mem_cons_of_mem l hm, hxm⟩

end BasicCli.Text
