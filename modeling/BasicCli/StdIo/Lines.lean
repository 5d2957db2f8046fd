import Mathlib.Data.List.Basic

/-!
# Lines

A list cut behind each occurrence of a delimiter: `upTo` is the first piece and `lines` all of them.
They concatenate to the list (`flatten_lines`), and there are as many as `lineCount` says
(`length_lines`).
-/

namespace BasicCli.StdIo

variable {α : Type} [DecidableEq α]

/-- The list up to and including the first `d`, all of it if there is none. -/
def upTo (d : α) : List α → List α
  | [] => []
  | b :: bs => if b = d then [b] else b :: upTo d bs

/-- The pieces of a list that end in `d`, and what is left behind the last `d`. -/
def lines (d : α) : List α → List (List α)
  | [] => []
  | b :: bs =>
    if b = d then [b] :: lines d bs
    else
      match lines d bs with
      | [] => [[b]]
      | l :: ls => (b :: l) :: ls

/-- The number of lines: one for each `d`, and one more if something is left behind the last. -/
def lineCount (d : α) (bs : List α) : ℕ :=
  bs.count d + if bs = [] ∨ bs.getLast? = some d then 0 else 1

/-! ### The first line -/

/-- A list without the delimiter comes before the first line's end. -/
theorem upTo_append_of_notMem {d : α} {bs : List α} (h : d ∉ bs) (rest : List α) :
    upTo d (bs ++ rest) = bs ++ upTo d rest := by
  induction bs with
  | nil => rfl
  | cons b bs ih =>
    rw [List.mem_cons, not_or] at h
    rw [List.cons_append, upTo, if_neg (Ne.symm h.1), ih h.2, List.cons_append]

/-- The first line ends at the first delimiter. -/
theorem upTo_append_cons {d : α} {bs : List α} (h : d ∉ bs) (rest : List α) :
    upTo d (bs ++ d :: rest) = bs ++ [d] := by
  rw [upTo_append_of_notMem h, upTo, if_pos rfl]

theorem upTo_of_notMem {d : α} {bs : List α} (h : d ∉ bs) : upTo d bs = bs := by
  have := upTo_append_of_notMem h []
  rwa [List.append_nil, upTo, List.append_nil] at this

/-- Either there is no `d`, and the first line is the list, or there is a first `d`, and it ends the
first line. -/
theorem upTo_cases (d : α) (bs : List α) :
    (d ∉ bs ∧ upTo d bs = bs) ∨ ∃ l rest, d ∉ l ∧ bs = l ++ d :: rest ∧ upTo d bs = l ++ [d] := by
  by_cases h : d ∈ bs
  · obtain ⟨l, rest, rfl, hl⟩ := List.eq_append_cons_of_mem h
    exact .inr ⟨l, rest, hl, rfl, upTo_append_cons hl rest⟩
  · exact .inl ⟨h, upTo_of_notMem h⟩

/-- The first line and the rest make up the list. -/
theorem upTo_append_drop (d : α) (bs : List α) : upTo d bs ++ bs.drop (upTo d bs).length = bs := by
  rcases upTo_cases d bs with ⟨-, h⟩ | ⟨l, rest, -, rfl, h⟩
  · rw [h, List.drop_length, List.append_nil]
  · rw [h, List.append_cons l d rest, List.drop_left]

/-- The delimiter ends the line. -/
theorem notMem_dropLast_upTo (d : α) (bs : List α) : d ∉ (upTo d bs).dropLast := by
  rcases upTo_cases d bs with ⟨hd, h⟩ | ⟨l, rest, hl, -, h⟩
  · rw [h]
    exact fun hm => hd (List.dropLast_subset bs hm)
  · rwa [h, List.dropLast_concat]

/-- Only the end of the list ends a line without a `d`. -/
theorem upTo_eq_of_getLast?_ne {d : α} {bs : List α} (h : (upTo d bs).getLast? ≠ some d) :
    upTo d bs = bs := by
  rcases upTo_cases d bs with ⟨-, h'⟩ | ⟨l, rest, -, -, h'⟩
  · exact h'
  · rw [h', List.getLast?_concat] at h
    exact absurd rfl h

theorem upTo_ne_nil {d : α} {bs : List α} (h : bs ≠ []) : upTo d bs ≠ [] := by
  cases bs with
  | nil => exact absurd rfl h
  | cons b bs =>
    rw [upTo]
    split_ifs <;> exact List.cons_ne_nil _ _

/-! ### All lines -/

/-- **The lines make up the list.** -/
theorem flatten_lines (d : α) (bs : List α) : (lines d bs).flatten = bs := by
  induction bs with
  | nil => rfl
  | cons b bs ih =>
    rw [lines]
    split_ifs
    · rw [List.flatten_cons, ih, List.singleton_append]
    · cases h : lines d bs with
      | nil => rw [← ih, h]; rfl
      | cons l ls => rw [← ih, h]; rfl

/-- The first line, and those of the rest. -/
theorem lines_eq_cons {d : α} {bs : List α} (h : bs ≠ []) :
    lines d bs = upTo d bs :: lines d (bs.drop (upTo d bs).length) := by
  induction bs with
  | nil => exact absurd rfl h
  | cons b bs ih =>
    rw [lines, upTo]
    split_ifs with hb
    · rfl
    · by_cases hbs : bs = []
      · rw [hbs]
        rfl
      · rw [ih hbs]
        rfl

/-- Behind the first line are the other lines. -/
theorem lines_drop_upTo (d : α) (bs : List α) :
    lines d (bs.drop (upTo d bs).length) = (lines d bs).tail := by
  by_cases h : bs = []
  · rw [h]
    rfl
  · rw [lines_eq_cons h, List.tail_cons]

theorem head?_lines {d : α} {bs : List α} (h : bs ≠ []) :
    (lines d bs).head? = some (upTo d bs) := by
  rw [lines_eq_cons h, List.head?_cons]

theorem lines_eq_nil_iff {d : α} {bs : List α} : lines d bs = [] ↔ bs = [] := by
  constructor
  · intro h
    rw [← flatten_lines d bs, h, List.flatten_nil]
  · rintro rfl
    rfl

/-- Induction line by line. -/
theorem line_induction (d : α) {p : List α → Prop} (nil : p [])
    (line : ∀ bs, bs ≠ [] → p (bs.drop (upTo d bs).length) → p bs) (bs : List α) : p bs := by
  induction hn : bs.length using Nat.strongRecOn generalizing bs with
  | _ n ih =>
    by_cases hbs : bs = []
    · rw [hbs]
      exact nil
    · refine line bs hbs (ih _ ?_ _ rfl)
      have hpos : 0 < (upTo d bs).length := List.length_pos_iff.mpr (upTo_ne_nil hbs)
      have hlen : 0 < bs.length := List.length_pos_iff.mpr hbs
      rw [List.length_drop]
      omega

theorem ne_nil_of_mem_lines {d : α} {bs l : List α} : l ∈ lines d bs → l ≠ [] := by
  induction bs using line_induction d with
  | nil => exact fun h => nomatch h
  | line bs hbs ih =>
    rw [lines_eq_cons hbs]
    intro h
    rcases List.mem_cons.mp h with rfl | h
    · exact upTo_ne_nil hbs
    · exact ih h

/-- A delimiter in a line is its last element. -/
theorem notMem_dropLast_of_mem_lines {d : α} {bs l : List α} :
    l ∈ lines d bs → d ∉ l.dropLast := by
  induction bs using line_induction d with
  | nil => exact fun h => nomatch h
  | line bs hbs ih =>
    rw [lines_eq_cons hbs]
    intro h
    rcases List.mem_cons.mp h with rfl | h
    · exact notMem_dropLast_upTo d bs
    · exact ih h

/-- Every line but the last ends in a delimiter. -/
theorem getLast?_of_mem_dropLast_lines {d : α} {bs l : List α} :
    l ∈ (lines d bs).dropLast → l.getLast? = some d := by
  induction bs using line_induction d with
  | nil => exact fun h => nomatch h
  | line bs hbs ih =>
    rw [lines_eq_cons hbs]
    intro h
    by_cases hl : lines d (bs.drop (upTo d bs).length) = []
    · rw [hl] at h
      cases h
    · rw [List.dropLast_cons_of_ne_nil hl] at h
      rcases List.mem_cons.mp h with rfl | h
      · by_contra hne
        rw [upTo_eq_of_getLast?_ne hne, List.drop_length] at hl
        exact hl rfl
      · exact ih h

/-- **The number of lines** is that of the delimiters, and one more where something is behind the
last. -/
theorem length_lines (d : α) (bs : List α) : (lines d bs).length = lineCount d bs := by
  induction bs using line_induction d with
  | nil => rfl
  | line bs hbs ih =>
    rw [lines_eq_cons hbs, List.length_cons, ih]
    rcases upTo_cases d bs with ⟨hd, h⟩ | ⟨l, rest, hl, rfl, h⟩
    · have hlast : bs.getLast? ≠ some d := fun he => hd (List.mem_of_getLast? he)
      rw [h, List.drop_length, lineCount, lineCount, List.count_eq_zero.mpr hd,
        if_neg (not_or.mpr ⟨hbs, hlast⟩), if_pos (.inl rfl), List.count_nil]
    · rw [h, List.append_cons l d rest, List.drop_left, lineCount, lineCount, List.count_append,
        List.count_append, List.count_eq_zero.mpr hl, List.count_singleton_self]
      have hlast : (l ++ [d] ++ rest = [] ∨ (l ++ [d] ++ rest).getLast? = some d) ↔
          (rest = [] ∨ rest.getLast? = some d) := by
        by_cases hr : rest = []
        · rw [hr, List.append_nil, List.getLast?_concat]
          exact iff_of_true (.inr rfl) (.inl rfl)
        · rw [List.getLast?_append_of_ne_nil _ hr]
          simp [hr]
      simp only [hlast]
      omega

/-- Each line has a byte of its own. -/
theorem lineCount_le_length (d : α) (bs : List α) : lineCount d bs ≤ bs.length := by
  rw [← length_lines]
  induction bs using line_induction d with
  | nil => exact Nat.le_refl 0
  | line bs hbs ih =>
    have hpos : 0 < (upTo d bs).length := List.length_pos_iff.mpr (upTo_ne_nil hbs)
    have hle : (upTo d bs).length ≤ bs.length :=
      List.IsPrefix.length_le ⟨_, upTo_append_drop d bs⟩
    rw [List.length_drop] at ih
    rw [lines_eq_cons hbs, List.length_cons]
    omega

end BasicCli.StdIo
