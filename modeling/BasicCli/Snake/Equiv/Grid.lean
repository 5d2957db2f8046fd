import BasicCli.Snake.Equiv.Trail
import Mathlib.Data.List.Perm.Subperm

/-!
# The snake on the grid

Whatever is pressed, the snake stays in one piece on the grid without covering a cell twice, and the
food stays on the grid (`stateAt_ok`).  So no coordinate and no length comes near the bounds of the
integers of the program.
-/

namespace BasicCli.Snake

/-- One step from a cell to the next. -/
def Next (pos behind : Position) : Prop := ∃ direction, pos = moveHead behind direction

/-- What is to hold of the state, however the game is played. -/
structure GameState.Ok (state : GameState) : Prop where
  onGrid : ∀ pos ∈ state.snakeLst.toList, pos.OnGrid
  /-- the snake does not cross itself -/
  nodup : state.snakeLst.toList.Nodup
  /-- the snake is in one piece -/
  linked : state.snakeLst.toList.IsChain Next
  food_onGrid : state.foodPos.OnGrid
  long : initSnakeLen ≤ state.snakeLst.len
  short : state.snakeLst.len ≤ (gridSize * gridSize).toNat

/-! ### Trails -/

theorem foodAt_onGrid (eaten : ℕ) : (foodAt eaten).OnGrid := by
  have hnonneg : 0 ≤ (15 + 3 * (eaten : ℤ)) % gridSize := Int.emod_nonneg _ (by decide)
  have hlt : (15 + 3 * (eaten : ℤ)) % gridSize < gridSize := Int.emod_lt_of_pos _ (by decide)
  exact ⟨hnonneg, hlt, hnonneg, hlt⟩

namespace Trail

/-- What every move keeps of a trail. -/
structure Ok (t : Trail) : Prop where
  onGrid : ∀ pos ∈ t.head :: t.before, pos.OnGrid
  nodup : (t.head :: t.body).Nodup
  linked : (t.head :: t.before).IsChain Next

/-- The new body has no cell that neither the head nor the body had. -/
theorem body_enter_sublist (t : Trail) (pos : Position) :
    (t.enter pos).body.Sublist (t.head :: t.body) := by
  by_cases hfood : pos = foodAt t.eaten
  · rw [body_enter_food hfood]
  · rw [body_enter_free hfood]
    exact List.dropLast_sublist _

/-- **A step into a free cell** keeps the invariant. -/
theorem Ok.enter {t : Trail} (h : t.Ok) (hgrid : (moveHead t.head t.direction).OnGrid)
    (hfree : moveHead t.head t.direction ∉ t.head :: t.body) :
    (t.enter (moveHead t.head t.direction)).Ok := by
  have hsublist := t.body_enter_sublist (moveHead t.head t.direction)
  refine ⟨?_, ?_, ?_⟩
  · intro pos hpos
    obtain rfl | hpos := List.mem_cons.mp hpos
    · exact hgrid
    · exact h.onGrid pos hpos
  · rw [enter_head, List.nodup_cons]
    exact ⟨fun hmem => hfree (hsublist.mem hmem), h.nodup.sublist hsublist⟩
  · exact List.isChain_cons_cons.mpr ⟨⟨t.direction, rfl⟩, h.linked⟩

theorem Ok.press {t : Trail} (h : t.Ok) (inputBytes : List UInt8) : (t.press inputBytes).Ok :=
  ⟨h.onGrid, h.nodup, h.linked⟩

/-- **A move keeps the invariant**: it steps into a free cell, or it changes only that the game is
over. -/
theorem Ok.move {t : Trail} (h : t.Ok) : t.move.Ok := by
  obtain ⟨-, hgrid, hfree, hmove⟩ | hmove := t.move_cases
  · rw [hmove]
    exact h.enter hgrid hfree
  · rw [hmove]
    exact ⟨h.onGrid, h.nodup, h.linked⟩

theorem initial_ok : initial.Ok where
  onGrid := by decide
  nodup := by decide
  linked := List.isChain_cons_cons.mpr ⟨⟨.right, rfl⟩,
    List.isChain_cons_cons.mpr ⟨⟨.right, rfl⟩, List.isChain_singleton _⟩⟩

/-- **Every trail that is reached** meets the invariant. On the ticks. -/
theorem after_ok (input : ℕ → List UInt8) (n : ℕ) : (after input n).Ok := by
  induction n with
  | zero => exact initial_ok
  | succ n ih => exact (ih.press (input n)).move

end Trail

/-! ### Room -/

/-- All positions on the grid. -/
def gridPositions : List Position := gridRange.flatMap fun yy => gridRange.map fun xx => ⟨xx, yy⟩

theorem mem_gridRange {i : ℤ} : i ∈ gridRange ↔ 0 ≤ i ∧ i < gridSize := by
  rw [gridRange, List.mem_map]
  constructor
  · rintro ⟨n, hn, rfl⟩
    have hlt : n < 20 := List.mem_range.mp hn
    refine ⟨Int.natCast_nonneg n, ?_⟩
    show (n : ℤ) < 20
    omega
  · rintro ⟨hnonneg, hlt⟩
    exact ⟨i.toNat, List.mem_range.mpr (by omega), Int.toNat_of_nonneg hnonneg⟩

/-- A position is listed iff it is on the grid. -/
theorem mem_gridPositions {pos : Position} : pos ∈ gridPositions ↔ pos.OnGrid := by
  rw [gridPositions, List.mem_flatMap]
  constructor
  · rintro ⟨yy, hyy, hpos⟩
    obtain ⟨xx, hxx, rfl⟩ := List.mem_map.mp hpos
    obtain ⟨hx, hx'⟩ := mem_gridRange.mp hxx
    obtain ⟨hy, hy'⟩ := mem_gridRange.mp hyy
    exact ⟨hx, hx', hy, hy'⟩
  · rintro ⟨hx, hx', hy, hy'⟩
    exact ⟨pos.y, mem_gridRange.mpr ⟨hy, hy'⟩,
      List.mem_map.mpr ⟨pos.x, mem_gridRange.mpr ⟨hx, hx'⟩, rfl⟩⟩

theorem length_gridPositions : gridPositions.length = (gridSize * gridSize).toNat := by
  have hrow : ∀ yy : ℤ, (gridRange.map fun xx => (⟨xx, yy⟩ : Position)).length = 20 :=
    fun yy => List.length_map _
  rw [gridPositions, List.length_flatMap, List.map_congr_left fun yy _ => hrow yy]
  rfl

/-- There is room for so many cells only. -/
theorem length_le_of_onGrid {cells : List Position} (hnodup : cells.Nodup)
    (hgrid : ∀ pos ∈ cells, pos.OnGrid) : cells.length ≤ (gridSize * gridSize).toNat := by
  have hsubperm : cells.Subperm gridPositions :=
    hnodup.subperm fun pos hpos => mem_gridPositions.mpr (hgrid pos hpos)
  rw [← length_gridPositions]
  exact hsubperm.length_le

/-! ### Runs -/

theorem NonEmptyList.len_eq (list : NonEmptyList) : list.len = list.toList.length := by
  rw [len, toList, List.length_cons, Nat.add_comm]

/-- **However the game is played**, the snake stays in one piece on the grid and does not cross
itself, and the food stays on the grid. -/
theorem stateAt_ok (input : ℕ → List UInt8) (n : ℕ) : (stateAt input n).Ok := by
  rw [← Trail.state_after]
  have hok := Trail.after_ok input n
  generalize Trail.after input n = t at hok
  -- The body is a part of the trail behind the head, so it inherits what holds of the trail.
  have hpart : t.head :: t.body <+: t.head :: t.before :=
    List.cons_prefix_cons.mpr ⟨rfl, List.take_prefix _ _⟩
  have hgrid : ∀ pos ∈ t.head :: t.body, pos.OnGrid :=
    fun pos hpos => hok.onGrid pos (hpart.subset hpos)
  have hlen : t.state.snakeLst.len = initSnakeLen + t.eaten := by
    have h : t.state.snakeLst.len = 1 + t.body.length := rfl
    have hinit : initSnakeLen = 3 := rfl
    rw [h, t.length_body]
    omega
  exact {
    onGrid := hgrid
    nodup := hok.nodup
    linked := hok.linked.prefix hpart
    food_onGrid := foodAt_onGrid t.eaten
    long := by
      rw [hlen]
      exact Nat.le_add_right _ _
    short := by
      rw [NonEmptyList.len_eq]
      exact length_le_of_onGrid hok.nodup hgrid }

/-! ### Turning back -/

/-- The direction back. -/
def Direction.opposite : Direction → Direction
  | up => down
  | down => up
  | left => right
  | right => left

/-- The byte of the key for a direction. -/
def Direction.key : Direction → UInt8
  | up => 119
  | down => 115
  | left => 97
  | right => 100

/-- A step and the opposite one lead back. -/
theorem moveHead_opposite (pos : Position) (direction : Direction) :
    moveHead (moveHead pos direction) direction.opposite = pos := by
  cases direction <;> simp [moveHead, Direction.opposite]

/-- A direction's key turns the snake to it. -/
theorem press_key (state : GameState) (direction : Direction) :
    press state [direction.key] = { state with direction } := by
  cases direction <;> rfl

namespace Trail

/-- Behind the head is the cell that it came from. -/
theorem after_behind {input : ℕ → List UInt8} {n : ℕ} (h : (after input n).gameOver = false) :
    moveHead (after input n).head (after input n).direction.opposite ∈ (after input n).body := by
  cases n with
  | zero => exact List.mem_cons_self
  | succ n =>
    obtain ⟨-, hafter⟩ := after_succ_of_goes_on h
    rw [hafter]
    generalize hpressed : (after input n).press (input n) = t
    have hhead : (after input n).head = t.head := by
      rw [← hpressed]
      rfl
    have hdirection : (t.enter (moveHead t.head t.direction)).direction = t.direction := rfl
    rw [hhead, enter_head, hdirection, moveHead_opposite]
    -- Whether it eats or not, the old head is the first of the new body.
    by_cases hfood : moveHead t.head t.direction = foodAt t.eaten
    · rw [body_enter_food hfood]
      exact List.mem_cons_self
    · rw [body_enter_free hfood, List.dropLast_cons_of_ne_nil t.body_ne_nil]
      exact List.mem_cons_self

end Trail

/-- **The snake cannot turn back**: whenever the key against its direction is pressed, the game is
over. -/
theorem tick_opposite (input : ℕ → List UInt8) (n : ℕ) :
    (tick (stateAt input n) [(stateAt input n).direction.opposite.key]).gameOver = true := by
  rw [tick, press_key]
  rcases hover : (stateAt input n).gameOver with _ | _
  · -- The new head is the cell behind the old one.
    have hself : (stateAt input n).snakeLst.contains
        (moveHead (stateAt input n).snakeLst.first (stateAt input n).direction.opposite) =
        true := by
      rw [← Trail.state_after] at hover ⊢
      exact NonEmptyList.contains_iff.mpr (List.mem_cons_of_mem _ (Trail.after_behind hover))
    rw [updateGame, if_neg Bool.false_ne_true]
    dsimp only
    split_ifs
    · rfl
    · rfl
  · rw [updateGame, if_pos rfl]

end BasicCli.Snake
