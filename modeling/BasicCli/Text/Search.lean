import Mathlib.Data.List.DropRight
import Mathlib.Data.List.Infix
import Mathlib.Data.Nat.Find

/-!
# Searching and trimming lists

`List.dropInfix?` splits a list at the first occurrence of another one, `List.find?` finds an
element, and `trimBy` drops what satisfies `p` at both ends.
-/

namespace BasicCli.Text

variable {α : Type} {p : α → Bool} {a : α} {pat s before after : List α}

/-! ### The first occurrence -/

section

variable [DecidableEq α]

/-- The first occurrence of `pat` is the one that no other ends before. -/
theorem dropInfix?_eq_some_iff (hpat : pat ≠ []) :
    s.dropInfix? pat = some (before, after) ↔
      s = before ++ pat ++ after ∧ ¬ pat <:+: before ++ pat.dropLast := by
  have hpos := List.length_pos_iff.mpr hpat
  rw [List.dropInfix?_eq_some_iff]
  simp only [beq_iff_eq, exists_eq_right]
  refine and_congr_right fun hs => ⟨?_, ?_⟩
  · rintro hfirst ⟨l, r, hlr⟩
    have hlen := congrArg List.length hlr
    simp only [List.length_append, List.length_dropLast] at hlen
    have hle := hfirst l pat (r ++ [pat.getLast hpat] ++ after) ?_ rfl
    · omega
    · rw [hs, ← List.append_assoc, ← List.append_assoc, hlr, List.append_assoc before pat.dropLast,
        List.dropLast_append_getLast]
  · rintro hnone before' pat' after' hs' rfl
    by_contra hlt
    -- An earlier occurrence ends before the last element of this one.
    have hearlier : before' ++ pat' <+: s := ⟨after', hs'.symm⟩
    have hlast : before ++ pat'.dropLast <+: s := by
      refine ⟨[pat'.getLast hpat] ++ after, ?_⟩
      rw [hs, ← List.append_assoc, List.append_assoc before, List.dropLast_append_getLast]
    have hpref := List.prefix_of_prefix_length_le hearlier hlast (by
      rw [List.length_append, List.length_append, List.length_dropLast]
      omega)
    exact hnone ((List.suffix_append before' pat').isInfix.trans hpref.isInfix)

/-- What occurs is found. -/
theorem dropInfix?_eq_none_iff : s.dropInfix? pat = none ↔ ¬ pat <:+: s := by
  constructor
  · classical
    rintro hnone ⟨l, r, hlr⟩
    -- If there is an occurrence there is a first one, and that is the one that is cut at.
    have hex : ∃ n l r, s = l ++ pat ++ r ∧ l.length = n := ⟨_, l, r, hlr.symm, rfl⟩
    obtain ⟨before, after, hs, hlen⟩ := Nat.find_spec hex
    have hsome : s.dropInfix? pat = some (before, after) := by
      rw [List.dropInfix?_eq_some_iff]
      refine ⟨⟨pat, hs, beq_self_eq_true pat⟩, fun before' pat' after' hs' hpat' => ?_⟩
      rw [beq_iff_eq] at hpat'
      subst hpat'
      rw [hlen]
      exact Nat.find_min' hex ⟨before', after', hs', rfl⟩
    rw [hnone] at hsome
    cases hsome
  · intro h
    rcases hsome : s.dropInfix? pat with _ | ⟨before, after⟩
    · rfl
    · obtain ⟨⟨pat', hs, hpat'⟩, -⟩ := List.dropInfix?_eq_some_iff.mp hsome
      rw [beq_iff_eq] at hpat'
      subst hpat'
      exact absurd ⟨before, after, hs.symm⟩ h

/-- The first occurrence of a single element. -/
theorem dropInfix?_singleton_eq_some_iff :
    s.dropInfix? [a] = some (before, after) ↔ s = before ++ a :: after ∧ a ∉ before := by
  rw [dropInfix?_eq_some_iff (List.cons_ne_nil a []), List.append_assoc, List.singleton_append,
    List.dropLast_singleton, List.append_nil, List.singleton_infix_iff]

end

/-- A list that has its head only once does not overlap itself. -/
theorem infix_append_dropLast_iff {pat : List α} (ha : a ∉ pat) :
    a :: pat <:+: s ++ (a :: pat).dropLast ↔ a :: pat <:+: s := by
  refine ⟨fun h => ?_, fun h => h.trans (List.prefix_append _ _).isInfix⟩
  induction s with
  | nil =>
    have hlen := h.length_le
    rw [List.nil_append, List.length_dropLast, List.length_cons] at hlen
    omega
  | cons c s ih =>
    rcases List.infix_cons_iff.mp h with h | h
    · by_cases hlen : (a :: pat).length ≤ (c :: s).length
      · exact (List.prefix_of_prefix_length_le h (List.prefix_append _ _) hlen).isInfix
      · -- The occurrence would go on with a second `a`.
        obtain ⟨u, hu⟩ := List.prefix_of_prefix_length_le
          (List.prefix_append (c :: s) (a :: pat).dropLast) h (by omega)
        cases u with
        | nil =>
          rw [List.append_nil] at hu
          rw [hu] at hlen
          omega
        | cons b u =>
          rw [← hu] at h
          have hrest := (List.prefix_append_right_inj _).mp h
          rw [List.cons_append, List.dropLast_cons_of_ne_nil (by simp)] at hrest
          obtain ⟨rfl, -⟩ := List.cons_prefix_cons.mp hrest
          obtain ⟨rfl, hpat⟩ := List.cons.inj hu
          rw [← hpat] at ha
          exact absurd (List.mem_append_right s List.mem_cons_self) ha
    · exact (ih h).trans (List.suffix_cons c s).isInfix

/-- What is found first is the only thing that there is to find. -/
theorem find?_eq_of_forall {o : Option α} (h : ∀ x, x ∈ s ∧ p x ↔ o = some x) :
    s.find? p = o := by
  rcases hfind : s.find? p with _ | x
  · rcases o with _ | x
    · rfl
    · obtain ⟨hx, hp⟩ := (h x).mpr rfl
      exact absurd hp (List.find?_eq_none.mp hfind x hx)
  · exact ((h x).mp ⟨List.mem_of_find?_eq_some hfind, List.find?_some hfind⟩).symm

/-! ### Trimming -/

theorem rdropWhile_append_of_pos {s t : List α} (ht : ∀ c ∈ t, p c) :
    (s ++ t).rdropWhile p = s.rdropWhile p := by
  induction t using List.reverseRecOn with
  | nil => rw [List.append_nil]
  | append_singleton t c ih =>
    rw [← List.append_assoc, List.rdropWhile_concat_pos _ _ _ (ht c (by simp))]
    exact ih fun c hc => ht c (List.mem_append_left _ hc)

theorem rdropWhile_append_cons {c : α} (hc : ¬ p c) (s t : List α) :
    (s ++ c :: t).rdropWhile p = s ++ c :: t.rdropWhile p := by
  induction t using List.reverseRecOn with
  | nil => rw [List.rdropWhile_concat_neg _ _ _ hc, List.rdropWhile_nil]
  | append_singleton t d ih =>
    rw [← List.cons_append, ← List.append_assoc]
    by_cases hd : p d
    · rw [List.rdropWhile_concat_pos _ _ _ hd, ih, List.rdropWhile_concat_pos _ _ _ hd]
    · rw [List.rdropWhile_concat_neg _ _ _ hd, List.rdropWhile_concat_neg _ _ _ hd,
        List.append_assoc, List.cons_append]

/-- What is dropped at the end is behind everything that is not. -/
theorem eq_of_append_eq {c : α} (hc : ¬ p c) {r l t : List α} (hr : ∀ c ∈ r, p c)
    (h : s ++ r = l ++ c :: t) : ∃ t', s = l ++ c :: t' ∧ t = t' ++ r := by
  rcases List.append_eq_append_iff.mp h with ⟨u, -, hu⟩ | ⟨u, hs, hu⟩
  · refine absurd (hr c ?_) hc
    rw [hu]
    exact List.mem_append_right u List.mem_cons_self
  · cases u with
    | nil =>
      refine absurd (hr c ?_) hc
      rw [← List.nil_append r, ← hu]
      exact List.mem_cons_self
    | cons d u =>
      obtain ⟨rfl, ht⟩ := List.cons.inj hu
      exact ⟨u, hs, ht⟩

/-- Drop what satisfies `p` at both ends. -/
def trimBy (p : α → Bool) (s : List α) : List α := (s.dropWhile p).rdropWhile p

/-- What is trimmed in front makes no difference. -/
theorem trimBy_append_left {s t : List α} (hs : ∀ c ∈ s, p c) :
    trimBy p (s ++ t) = trimBy p t := by
  rw [trimBy, List.dropWhile_append_of_pos hs, trimBy]

theorem trimBy_append_right {s t : List α} (ht : ∀ c ∈ t, p c) :
    trimBy p (s ++ t) = trimBy p s := by
  rw [trimBy, trimBy, List.dropWhile_append]
  split
  · rename_i h
    rw [List.isEmpty_iff.mp h, List.dropWhile_eq_nil_iff.mpr ht]
  · exact rdropWhile_append_of_pos ht

/-- A character that stays keeps what is beside it apart. -/
theorem trimBy_append_cons {c : α} (hc : ¬ p c) (s t : List α) :
    trimBy p (s ++ c :: t) = s.dropWhile p ++ c :: t.rdropWhile p := by
  rw [trimBy, List.dropWhile_append]
  split
  · rename_i h
    rw [List.isEmpty_iff.mp h, List.dropWhile_cons_of_neg hc]
    exact rdropWhile_append_cons hc [] t
  · exact rdropWhile_append_cons hc _ t

theorem trimBy_cons {c : α} (hc : ¬ p c) (s : List α) :
    trimBy p (c :: s) = c :: s.rdropWhile p :=
  trimBy_append_cons hc [] s

/-- A list with nothing to trim stays. -/
theorem trimBy_of_forall (hs : ∀ c ∈ s, ¬ p c) : trimBy p s = s := by
  cases s with
  | nil => rfl
  | cons c s =>
    rw [trimBy_cons (hs c List.mem_cons_self), List.rdropWhile_eq_self_iff.mpr]
    exact fun hne => hs _ (List.mem_cons_of_mem c (List.getLast_mem hne))

/-- What is dropped at the two ends. -/
theorem exists_eq_trimBy (p : α → Bool) (s : List α) :
    ∃ l r, (∀ c ∈ l, p c) ∧ (∀ c ∈ r, p c) ∧ s = l ++ trimBy p s ++ r := by
  refine ⟨s.takeWhile p, (s.dropWhile p).rtakeWhile p, fun c => List.mem_takeWhile_imp,
    fun c => List.mem_rtakeWhile_imp, ?_⟩
  rw [trimBy, List.append_assoc, List.rdropWhile_append_rtakeWhile, List.takeWhile_append_dropWhile]

/-- **Trimming twice** is trimming once. -/
theorem trimBy_trimBy (p : α → Bool) (s : List α) : trimBy p (trimBy p s) = trimBy p s := by
  obtain ⟨l, r, hl, hr, hs⟩ := exists_eq_trimBy p s
  conv_rhs => rw [hs, trimBy_append_right hr, trimBy_append_left hl]

theorem trimBy_rdropWhile (p : α → Bool) (s : List α) : trimBy p (s.rdropWhile p) = trimBy p s := by
  conv_rhs => rw [← List.rdropWhile_append_rtakeWhile (p := p) (l := s)]
  exact (trimBy_append_right fun c => List.mem_rtakeWhile_imp).symm

/-- A pattern without such characters is not found among them. -/
theorem infix_append_left_iff (hpat : pat ≠ []) (hp : ∀ c ∈ pat, ¬ p c) {l : List α}
    (hl : ∀ c ∈ l, p c) : pat <:+: l ++ s ↔ pat <:+: s := by
  induction l with
  | nil => rfl
  | cons c l ih =>
    rw [List.cons_append, List.infix_cons_iff, ih fun c hc => hl c (List.mem_cons_of_mem _ hc)]
    refine or_iff_right fun h => ?_
    obtain ⟨d, pat', rfl⟩ := List.exists_cons_of_ne_nil hpat
    obtain ⟨rfl, -⟩ := List.cons_prefix_cons.mp h
    exact hp d List.mem_cons_self (hl d List.mem_cons_self)

theorem infix_append_right_iff (hpat : pat ≠ []) (hp : ∀ c ∈ pat, ¬ p c) {r : List α}
    (hr : ∀ c ∈ r, p c) : pat <:+: s ++ r ↔ pat <:+: s := by
  rw [← List.reverse_infix, List.reverse_append, infix_append_left_iff (p := p), List.reverse_infix]
  · simpa using hpat
  · simpa using hp
  · simpa using hr

/-- What has nothing to drop is found in the trimmed list too. -/
theorem infix_trimBy_iff (hpat : pat ≠ []) (hp : ∀ c ∈ pat, ¬ p c) :
    pat <:+: trimBy p s ↔ pat <:+: s := by
  obtain ⟨l, r, hl, hr, hs⟩ := exists_eq_trimBy p s
  conv_rhs => rw [hs, infix_append_right_iff hpat hp hr, infix_append_left_iff hpat hp hl]

end BasicCli.Text
