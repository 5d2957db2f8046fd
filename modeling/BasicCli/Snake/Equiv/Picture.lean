import BasicCli.Snake.Equiv.Grid

/-!
# What the picture tells

A picture has a line for each row of the grid and a character for each cell.  Two states of the game
have the same picture just if they have the same head and the same cells of the snake, in any order,
and the same food, if it can be seen (`drawGamePure_eq_iff`).
-/

namespace BasicCli.Snake

/-! ### Lines -/

/-- Lists of the same lengths are told from what they are joined to. -/
theorem intercalate_inj {α : Type} (sep : List α) {xs ys : List (List α)}
    (hlength : xs.map List.length = ys.map List.length) :
    sep.intercalate xs = sep.intercalate ys ↔ xs = ys := by
  induction xs generalizing ys with
  | nil =>
    rw [List.map_nil, eq_comm, List.map_eq_nil_iff] at hlength
    subst hlength
    exact iff_of_true rfl rfl
  | cons x xs ih =>
    cases ys with
    | nil => cases hlength
    | cons y ys =>
      obtain ⟨hxy, htail⟩ := List.cons.inj hlength
      have hnil : xs = [] ↔ ys = [] := by
        rw [← List.map_eq_nil_iff (f := List.length), htail, List.map_eq_nil_iff]
      by_cases hxs : xs = []
      · rw [hxs, hnil.mp hxs, List.intercalate_singleton, List.intercalate_singleton,
          List.singleton_inj]
      · rw [List.intercalate_cons_of_ne_nil hxs, List.intercalate_cons_of_ne_nil (mt hnil.mpr hxs),
          List.append_assoc, List.append_assoc, List.cons.injEq, ← ih htail]
        constructor
        · intro h
          -- Equal lengths make the cut unique.
          obtain ⟨rfl, hrest⟩ := List.append_inj h hxy
          exact ⟨rfl, List.append_cancel_left hrest⟩
        · rintro ⟨rfl, hrest⟩
          rw [hrest]

/-- **A picture shows each cell of the grid.** -/
theorem drawGamePure_eq_iff_cell {state state' : GameState} :
    drawGamePure state = drawGamePure state' ↔
      ∀ pos : Position, pos.OnGrid → cell state pos = cell state' pos := by
  rw [drawGamePure, drawGamePure, intercalate_inj, List.map_inj_left]
  · constructor
    · rintro h pos ⟨hx, hx', hy, hy'⟩
      have hrow := h pos.y (mem_gridRange.mpr ⟨hy, hy'⟩)
      exact List.map_inj_left.mp hrow pos.x (mem_gridRange.mpr ⟨hx, hx'⟩)
    · intro h yy hyy
      obtain ⟨hy, hy'⟩ := mem_gridRange.mp hyy
      refine List.map_inj_left.mpr fun xx hxx => ?_
      obtain ⟨hx, hx'⟩ := mem_gridRange.mp hxx
      exact h ⟨xx, yy⟩ ⟨hx, hx', hy, hy'⟩
  · simp only [List.map_map, Function.comp_def, List.length_map]

/-! ### Cells -/

/-- The food, unless the snake covers it. -/
def GameState.visibleFood (state : GameState) : Option Position :=
  if state.foodPos ∈ state.snakeLst.toList then none else some state.foodPos

variable {state state' : GameState} {pos : Position}

theorem cell_eq_head_iff : cell state pos = 'O' ↔ pos = state.snakeLst.first := by
  unfold cell
  split_ifs with hsnake hhead hfood
  · exact iff_of_true rfl hhead
  · exact iff_of_false (by decide) hhead
  · refine iff_of_false (by decide) ?_
    rintro rfl
    exact hsnake (NonEmptyList.contains_iff.mpr List.mem_cons_self)
  · refine iff_of_false (by decide) ?_
    rintro rfl
    exact hsnake (NonEmptyList.contains_iff.mpr List.mem_cons_self)

theorem cell_eq_snake_iff :
    cell state pos = 'O' ∨ cell state pos = 'o' ↔ pos ∈ state.snakeLst.toList := by
  rw [← NonEmptyList.contains_iff]
  unfold cell
  split_ifs with hsnake <;> simp [hsnake]

theorem GameState.Ok.visibleFood_onGrid (h : state.Ok) (hfood : state.visibleFood = some pos) :
    pos.OnGrid := by
  rw [GameState.visibleFood] at hfood
  split_ifs at hfood
  obtain rfl := Option.some.inj hfood
  exact h.food_onGrid

theorem cell_eq_food_iff : cell state pos = '*' ↔ state.visibleFood = some pos := by
  rw [GameState.visibleFood]
  -- Food under the snake is not drawn.
  by_cases hsnake : pos ∈ state.snakeLst.toList
  · have hcell : cell state pos ≠ '*' := by
      rcases cell_eq_snake_iff.mpr hsnake with h | h
      · rw [h]
        decide
      · rw [h]
        decide
    refine iff_of_false hcell ?_
    split_ifs with hcovered
    · exact nofun
    · intro h
      exact hcovered (Option.some.inj h ▸ hsnake)
  · rw [cell, if_neg (mt NonEmptyList.contains_iff.mp hsnake)]
    split_ifs with hfood hcovered hcovered
    · exact absurd (hfood ▸ hcovered) hsnake
    · exact iff_of_true rfl (congrArg some hfood.symm)
    · exact iff_of_false (by decide) nofun
    · exact iff_of_false (by decide) fun h => hfood (Option.some.inj h).symm

theorem cell_empty (hsnake : pos ∉ state.snakeLst.toList)
    (hvisible : state.visibleFood ≠ some pos) : cell state pos = '.' := by
  have hfood := mt cell_eq_food_iff.mp hvisible
  rw [cell, if_neg (mt NonEmptyList.contains_iff.mp hsnake)] at hfood ⊢
  split_ifs at hfood ⊢
  · exact absurd rfl hfood
  · rfl

/-! ### States -/

/-- On the grid, two states look the same. -/
theorem cell_eq_iff (h : state.Ok) (h' : state'.Ok) :
    (∀ pos : Position, pos.OnGrid → cell state pos = cell state' pos) ↔
      state.snakeLst.first = state'.snakeLst.first ∧
        state.snakeLst.toList.Perm state'.snakeLst.toList ∧
        state.visibleFood = state'.visibleFood := by
  constructor
  · -- Each of the three can be read off its cells.
    intro hcells
    have hfirst : state.snakeLst.first = state'.snakeLst.first := by
      rw [← cell_eq_head_iff, ← hcells _ (h.onGrid _ List.mem_cons_self), cell_eq_head_iff]
    have hsnake : ∀ pos, pos ∈ state.snakeLst.toList ↔ pos ∈ state'.snakeLst.toList := by
      intro pos
      by_cases hpos : pos.OnGrid
      · rw [← cell_eq_snake_iff, ← cell_eq_snake_iff, hcells pos hpos]
      · exact iff_of_false (fun hmem => hpos (h.onGrid pos hmem))
          fun hmem => hpos (h'.onGrid pos hmem)
    have hfood : ∀ pos, state.visibleFood = some pos ↔ state'.visibleFood = some pos := by
      intro pos
      by_cases hpos : pos.OnGrid
      · rw [← cell_eq_food_iff, ← cell_eq_food_iff, hcells pos hpos]
      · exact iff_of_false (fun hsome => hpos (h.visibleFood_onGrid hsome))
          fun hsome => hpos (h'.visibleFood_onGrid hsome)
    exact ⟨hfirst, (List.perm_ext_iff_of_nodup h.nodup h'.nodup).mpr hsnake, Option.ext hfood⟩
  · -- A cell is drawn by the first that applies: head, body, food, nothing.
    rintro ⟨hfirst, hperm, hfood⟩ pos -
    by_cases hhead : pos = state.snakeLst.first
    · rw [cell_eq_head_iff.mpr hhead, cell_eq_head_iff.mpr (hhead.trans hfirst)]
    by_cases hsnake : pos ∈ state.snakeLst.toList
    · have hbody := (cell_eq_snake_iff.mpr hsnake).resolve_left (mt cell_eq_head_iff.mp hhead)
      have hbody' := (cell_eq_snake_iff.mpr (hperm.mem_iff.mp hsnake)).resolve_left
        (mt cell_eq_head_iff.mp (hfirst ▸ hhead))
      rw [hbody, hbody']
    by_cases hvisible : state.visibleFood = some pos
    · rw [cell_eq_food_iff.mpr hvisible, cell_eq_food_iff.mpr (hfood ▸ hvisible)]
    rw [cell_empty hsnake hvisible, cell_empty (mt hperm.mem_iff.mpr hsnake) (hfood ▸ hvisible)]

/-- **What a picture tells**, of any two games: the head, the cells of the snake and the food that
is not covered. -/
theorem drawGamePure_eq_iff (input input' : ℕ → List UInt8) (n n' : ℕ) :
    drawGamePure (stateAt input n) = drawGamePure (stateAt input' n') ↔
      (stateAt input n).snakeLst.first = (stateAt input' n').snakeLst.first ∧
        (stateAt input n).snakeLst.toList.Perm (stateAt input' n').snakeLst.toList ∧
        (stateAt input n).visibleFood = (stateAt input' n').visibleFood := by
  rw [drawGamePure_eq_iff_cell, cell_eq_iff (stateAt_ok input n) (stateAt_ok input' n')]

end BasicCli.Snake
