import BasicCli.CargoVersions.Equiv.Entry

/-!
# The walk over the lines

`extract_dependencies` walks over the lines of the file and remembers whether it is in a dependency
section (`DepState.walk_eq`).  What it has found behind some lines is told by the lines themselves:
the last header says whether the next one is looked at (`inDepSection_iff`), and the dependencies
are what is read of those that are (`mem_stateBehind_iff`, `find?_stateBehind_iff`).
-/

namespace BasicCli

/-! ### One line -/

theorem not_isWhiteSpace_dependenciesTag : ∀ c ∈ dependenciesTag, ¬ isWhiteSpace c := by
  have hall : dependenciesTag.all fun c => !isWhiteSpace c := rfl
  intro c hc
  simpa using List.all_eq_true.mp hall c hc

/-- The tag is found in a line as it is in the trimmed one. -/
theorem contains_trim (line : Str) :
    (Str.trim line).contains dependenciesTag = decide (HasTag line) :=
  decide_eq_decide.mpr (Text.infix_trimBy_iff (by decide) not_isWhiteSpace_dependenciesTag)

/-- A blank line is no header, and nothing is read of it. -/
theorem lineDep_of_blank {line : Str} (h : (Str.trim line).isEmpty) :
    ¬ IsHeader line ∧ lineDep line = none := by
  have htrim : Str.trim line = [] := List.isEmpty_iff.mp h
  constructor
  · rw [IsHeader, htrim]
    decide
  · rw [lineDep, htrim]
    rfl

/-- **What a line does**: a header opens or closes a section, and what is read of another line of a
dependency section is kept. -/
theorem DepState.walk_eq (state : DepState) (line : Str) :
    state.walk line =
      ⟨state.deps ++
          (if state.inDepSection ∧ ¬ IsHeader line then lineDep line else none).toList,
        decide (HasTag line ∨ ¬ IsHeader line ∧ state.inDepSection)⟩ := by
  obtain ⟨deps, inDepSection⟩ := state
  -- The branches of the source, in its order: blank, header, inside a section, outside.
  by_cases hempty : (Str.trim line).isEmpty
  · obtain ⟨hheader, hnone⟩ := lineDep_of_blank hempty
    have hstarts : (Str.trim line).startsWith ['['] = false := Bool.eq_false_iff.mpr hheader
    rw [walk, contains_trim, hempty, hstarts, hnone]
    by_cases htag : HasTag line
    · simp [htag]
    · simp [htag, hheader]
  · rw [walk, contains_trim, Bool.eq_false_iff.mpr hempty]
    by_cases hheader : IsHeader line
    · have hstarts : (Str.trim line).startsWith ['['] = true := hheader
      rw [hstarts]
      by_cases htag : HasTag line
      · simp [htag, hheader]
      · simp [htag, hheader]
    · have hstarts : (Str.trim line).startsWith ['['] = false := Bool.eq_false_iff.mpr hheader
      rw [hstarts, lineDep]
      cases inDepSection with
      | false => simp
      | true =>
        rcases parseDependencyLine (Str.trim line) with err | dep
        · simp [hheader, Except.toOption]
        · simp [hheader, Except.toOption]

/-- **A skipped line** is one that makes no difference in a dependency section. -/
theorem DepState.walk_eq_self_iff {deps : List Dep} {line : Str} :
    DepState.walk ⟨deps, true⟩ line = ⟨deps, true⟩ ↔ IsSkipped line := by
  rw [walk_eq, DepState.mk.injEq]
  by_cases hheader : IsHeader line
  · have hskipped : IsSkipped line ↔ HasTag line :=
      ⟨fun h => h.tag hheader, fun htag => ⟨fun _ => htag, fun h => absurd hheader h⟩⟩
    simp [hheader, hskipped]
  · have hskipped : IsSkipped line ↔ lineDep line = none := by
      rw [Option.eq_none_iff_forall_ne_some]
      constructor
      · exact fun h d hd => h.dep hheader d (lineDep_eq_some_iff.mp hd)
      · intro h
        refine ⟨fun h' => absurd h' hheader, ?_⟩
        exact fun _ d hd => h d (lineDep_eq_some_iff.mpr hd)
    rw [hskipped]
    rcases lineDep line with _ | dep
    · simp [hheader]
    · simp [hheader]

/-! ### Lines in their order -/

theorem openBehind_concat_iff {lines : List Str} {line : Str} :
    OpenBehind (lines ++ [line]) ↔ HasTag line ∨ ¬ IsHeader line ∧ OpenBehind lines := by
  constructor
  · rintro ⟨before, opening, after, hlines, htag, hafter⟩
    -- Whether the new line is the one that opens the section.
    rcases List.eq_nil_or_concat after with rfl | ⟨after, last, rfl⟩
    · obtain ⟨-, h⟩ := List.append_inj' hlines rfl
      cases h
      exact .inl htag
    · rw [List.concat_eq_append] at hlines hafter
      rw [← List.cons_append, ← List.append_assoc] at hlines
      obtain ⟨rfl, h⟩ := List.append_inj' hlines rfl
      cases h
      by_cases hlast : HasTag line
      · exact .inl hlast
      · refine .inr ⟨fun hheader => hlast (hafter line (by simp) hheader), ?_⟩
        exact ⟨before, opening, after, rfl, htag, fun l hl => hafter l (by simp [hl])⟩
  · rintro (htag | ⟨hheader, before, opening, after, rfl, htag, hafter⟩)
    · exact ⟨lines, line, [], rfl, htag, fun l hl => absurd hl List.not_mem_nil⟩
    · refine ⟨before, opening, after ++ [line], by simp, htag, fun l hl h => ?_⟩
      rcases List.mem_append.mp hl with hl | hl
      · exact hafter l hl h
      · obtain rfl := List.mem_singleton.mp hl
        exact absurd h hheader

/-- What is read of one more line comes behind all that is read before. -/
theorem readAt_concat_iff {lines : List Str} {line : Str} {i : ℕ} {d : Dep} :
    ReadAt (lines ++ [line]) i d ↔
      ReadAt lines i d ∨
        i = lines.length ∧ OpenBehind lines ∧ ¬ IsHeader line ∧ ReadsDep line d := by
  rcases Nat.lt_trichotomy i lines.length with hlt | rfl | hlt
  · rw [or_iff_left fun h => absurd h.1 (Nat.ne_of_lt hlt), ReadAt, ReadAt,
      List.getElem?_append_left hlt, List.take_append_of_le_length (Nat.le_of_lt hlt)]
  · have hread : ¬ ReadAt lines lines.length d := by
      rintro ⟨l, hl, -⟩
      rw [List.getElem?_eq_none (Nat.le_refl _)] at hl
      cases hl
    rw [or_iff_right hread, and_iff_right rfl, ReadAt, List.getElem?_concat_length,
      List.take_left]
    simp
  · have hnone : ∀ {ls : List Str}, ls.length ≤ i → ¬ ReadAt ls i d := by
      rintro ls hle ⟨l, hl, -⟩
      rw [List.getElem?_eq_none hle] at hl
      cases hl
    refine iff_of_false (hnone (by simp; omega)) (not_or.mpr ⟨hnone (Nat.le_of_lt hlt), ?_⟩)
    exact fun h => absurd h.1 (Nat.ne_of_gt hlt)

theorem ReadAt.lt_length {lines : List Str} {i : ℕ} {d : Dep} (h : ReadAt lines i d) :
    i < lines.length := by
  obtain ⟨line, hline, -⟩ := h
  exact (List.getElem?_eq_some_iff.mp hline).1

/-- What `extract_dependencies` knows behind some lines. -/
def stateBehind (lines : List Str) : DepState := lines.foldl DepState.walk ⟨[], false⟩

theorem stateBehind_concat (lines : List Str) (line : Str) :
    stateBehind (lines ++ [line]) = (stateBehind lines).walk line := by
  rw [stateBehind, List.foldl_concat, stateBehind]

/-- **The section** that one is in is told by the last header. -/
theorem inDepSection_iff (lines : List Str) :
    (stateBehind lines).inDepSection = true ↔ OpenBehind lines := by
  induction lines using List.reverseRecOn with
  | nil =>
    refine iff_of_false (by decide) ?_
    rintro ⟨before, line, after, h, -⟩
    simp at h
  | append_singleton lines line ih =>
    rw [stateBehind_concat, DepState.walk_eq, decide_eq_true_iff, openBehind_concat_iff, ih]

/-- What a further line adds. -/
theorem deps_stateBehind_concat (lines : List Str) (line : Str) :
    ∃ new : Option Dep,
      (stateBehind (lines ++ [line])).deps = (stateBehind lines).deps ++ new.toList ∧
        ∀ d, new = some d ↔ OpenBehind lines ∧ ¬ IsHeader line ∧ ReadsDep line d := by
  refine ⟨_, by rw [stateBehind_concat, DepState.walk_eq], fun d => ?_⟩
  rw [← inDepSection_iff, ← lineDep_eq_some_iff, ← and_assoc]
  split_ifs with h
  · exact (and_iff_right h).symm
  · exact iff_of_false nofun fun h' => h h'.1

/-- **The dependencies** are what is read of the lines. -/
theorem mem_stateBehind_iff {lines : List Str} {d : Dep} :
    d ∈ (stateBehind lines).deps ↔ ∃ i, ReadAt lines i d := by
  induction lines using List.reverseRecOn with
  | nil =>
    refine iff_of_false List.not_mem_nil ?_
    rintro ⟨i, h⟩
    exact absurd h.lt_length (Nat.not_lt_zero i)
  | append_singleton lines line ih =>
    obtain ⟨new, hdeps, hnew⟩ := deps_stateBehind_concat lines line
    rw [hdeps, List.mem_append, Option.mem_toList, ih, hnew]
    simp only [readAt_concat_iff, exists_or, exists_eq_left]

/-- **The first dependency of a name** is the one that is read first. -/
theorem find?_stateBehind_iff {lines : List Str} {name : Str} {c : Dep} :
    (stateBehind lines).deps.find? (fun c => c.name == name) = some c ↔
      ∃ i, ReadAt lines i c ∧ c.name = name ∧
        ∀ j < i, ∀ c', ReadAt lines j c' → c'.name ≠ name := by
  induction lines using List.reverseRecOn with
  | nil =>
    refine iff_of_false nofun ?_
    rintro ⟨i, h, -⟩
    exact absurd h.lt_length (Nat.not_lt_zero i)
  | append_singleton lines line ih =>
    -- The last line adds at most one dependency, behind those that are there.
    obtain ⟨new, hdeps, hnew⟩ := deps_stateBehind_concat lines line
    have hnone : (stateBehind lines).deps.find? (fun c => c.name == name) = none ↔
        ∀ j c', ReadAt lines j c' → c'.name ≠ name := by
      simp only [List.find?_eq_none, mem_stateBehind_iff, beq_iff_eq]
      exact ⟨fun h j c' hj => h c' ⟨j, hj⟩, fun h c' ⟨j, hj⟩ => h j c' hj⟩
    have hlast : new.toList.find? (fun c => c.name == name) = some c ↔
        (OpenBehind lines ∧ ¬ IsHeader line ∧ ReadsDep line c) ∧ c.name = name := by
      rw [← hnew]
      rcases new with _ | d
      · simp
      · by_cases hd : d.name = name
        · simp only [Option.toList_some, List.find?_cons, hd, beq_self_eq_true, Option.some_inj]
          exact ⟨fun h => ⟨h, h ▸ hd⟩, fun h => h.1⟩
        · refine iff_of_false ?_ ?_
          · simp [hd]
          · rintro ⟨hc, hname⟩
            exact hd (Option.some.inj hc ▸ hname)
    rw [hdeps, List.find?_append, Option.or_eq_some_iff, ih, hnone, hlast]
    constructor
    · rintro (⟨i, hread, hname, hfirst⟩ | ⟨hfirst, hread, hname⟩)
      · refine ⟨i, readAt_concat_iff.mpr (.inl hread), hname, fun j hj c' hread' => ?_⟩
        rcases readAt_concat_iff.mp hread' with hread' | ⟨rfl, -⟩
        · exact hfirst j hj c' hread'
        · exact absurd hread.lt_length (Nat.lt_asymm hj)
      · refine ⟨lines.length, readAt_concat_iff.mpr (.inr ⟨rfl, hread⟩), hname,
          fun j hj c' hread' => ?_⟩
        rcases readAt_concat_iff.mp hread' with hread' | ⟨rfl, -⟩
        · exact hfirst j c' hread'
        · exact absurd hj (Nat.lt_irrefl _)
    · rintro ⟨i, hread, hname, hfirst⟩
      rcases readAt_concat_iff.mp hread with hread | ⟨rfl, hline⟩
      · exact .inl ⟨i, hread, hname, fun j hj c' hread' =>
          hfirst j hj c' (readAt_concat_iff.mpr (.inl hread'))⟩
      · exact .inr ⟨fun j c' hread' =>
          hfirst j hread'.lt_length c' (readAt_concat_iff.mpr (.inl hread')), hline, hname⟩

end BasicCli
