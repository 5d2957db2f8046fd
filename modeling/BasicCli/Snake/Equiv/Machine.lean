import BasicCli.Snake.Equiv.Grid
import BasicCli.Snake.Machine

/-!
# The machine integers of the snake game have room

A step on machine integers crashes for no state whose snake is on the grid, and its value is that
of the step on numbers (`updateGame_value`).  As the snake stays on the grid, the whole game is the
same (`stateAt_value`), and so is the score (`score_value`).
-/

namespace BasicCli.Snake.Machine

/-! ### Values -/

/-- The position that the machine integers stand for. -/
def Position.value (pos : Position) : Snake.Position := ⟨pos.x.toInt, pos.y.toInt⟩

/-- The snake that the machine integers stand for. -/
def NonEmptyList.value (list : NonEmptyList) : Snake.NonEmptyList :=
  ⟨list.first.value, list.rest.map Position.value⟩

/-- The state that the machine integers stand for. -/
def GameState.value (state : GameState) : Snake.GameState :=
  ⟨state.snakeLst.value, state.foodPos.value, state.direction, state.gameOver⟩

theorem Position.value_injective : Function.Injective Position.value := by
  rintro ⟨x, y⟩ ⟨x', y'⟩ h
  obtain ⟨hx, hy⟩ := Snake.Position.mk.inj h
  obtain rfl : x = x' := Int64.toInt_inj.mp hx
  obtain rfl : y = y' := Int64.toInt_inj.mp hy
  rfl

theorem Position.value_eq_iff {pos pos' : Position} : pos.value = pos'.value ↔ pos = pos' :=
  Position.value_injective.eq_iff

namespace NonEmptyList

theorem contains_value (list : NonEmptyList) (pos : Position) :
    list.value.contains pos.value = list.contains pos := by
  have hrest : (list.rest.map Position.value).contains pos.value = list.rest.contains pos := by
    rw [Bool.eq_iff_iff, List.contains_iff_mem, List.contains_iff_mem]
    exact List.mem_map_of_injective Position.value_injective
  have hfirst : (list.first.value == pos.value) = (list.first == pos) := by
    rw [Bool.eq_iff_iff, beq_iff_eq, beq_iff_eq, Position.value_eq_iff]
  rw [Snake.NonEmptyList.contains, contains, ← hrest, ← hfirst]
  rfl

end NonEmptyList

theorem press_value (state : GameState) (inputBytes : List UInt8) :
    (press state inputBytes).value = Snake.press state.value inputBytes := by
  unfold press
  split
  case h_6 hw hs ha hd hq =>
    rw [Snake.press]
    · exact hw
    · exact hs
    · exact ha
    · exact hd
    · exact hq
  all_goals rfl

/-! ### Moves -/

theorem toInt_gridSize : gridSize.toInt = Snake.gridSize := by decide

/-- A coordinate of the grid has room on both sides. -/
theorem addI64_of_onGrid {x : Int64} (hlow : -1 ≤ x.toInt) (hhigh : x.toInt ≤ Snake.gridSize)
    (k : Int64) (hk : 0 ≤ k.toInt ∧ k.toInt ≤ 3) :
    ∃ y, Num.addI64 x k = .ok y ∧ y.toInt = x.toInt + k.toInt := by
  have hgrid : Snake.gridSize = 20 := rfl
  exact Num.checkI64_of_bounds (by omega) (by omega)

theorem subI64_of_onGrid {x : Int64} (hlow : 0 ≤ x.toInt) (hhigh : x.toInt ≤ Snake.gridSize) :
    ∃ y, Num.subI64 x 1 = .ok y ∧ y.toInt = x.toInt - 1 := by
  have hgrid : Snake.gridSize = 20 := rfl
  have hone : (1 : Int64).toInt = 1 := rfl
  rw [← hone]
  exact Num.checkI64_of_bounds (by omega) (by omega)

/-- **A head on the grid moves**, if only off the grid. -/
theorem moveHead_value {head : Position} (h : head.value.OnGrid) (direction : Direction) :
    ∃ pos, moveHead head direction = .ok pos ∧
      pos.value = Snake.moveHead head.value direction := by
  obtain ⟨hx, hx', hy, hy'⟩ := h
  have hx : 0 ≤ head.x.toInt := hx
  have hx' : head.x.toInt < Snake.gridSize := hx'
  have hy : 0 ≤ head.y.toInt := hy
  have hy' : head.y.toInt < Snake.gridSize := hy'
  have hone : 0 ≤ (1 : Int64).toInt ∧ (1 : Int64).toInt ≤ 3 := by decide
  cases direction with
  | up =>
    obtain ⟨y, hsub, hvalue⟩ := subI64_of_onGrid hy hy'.le
    exact ⟨{ head with y }, by rw [moveHead, hsub]; rfl, congrArg (Snake.Position.mk _) hvalue⟩
  | down =>
    obtain ⟨y, hadd, hvalue⟩ := addI64_of_onGrid (by omega) hy'.le 1 hone
    exact ⟨{ head with y }, by rw [moveHead, hadd]; rfl, congrArg (Snake.Position.mk _) hvalue⟩
  | left =>
    obtain ⟨x, hsub, hvalue⟩ := subI64_of_onGrid hx hx'.le
    exact ⟨{ head with x }, by rw [moveHead, hsub]; rfl, congrArg (Snake.Position.mk · _) hvalue⟩
  | right =>
    obtain ⟨x, hadd, hvalue⟩ := addI64_of_onGrid (by omega) hx'.le 1 hone
    exact ⟨{ head with x }, by rw [moveHead, hadd]; rfl, congrArg (Snake.Position.mk · _) hvalue⟩

/-- The test for the grid is the same. -/
theorem offGrid_iff (pos : Position) :
    (pos.x < 0 ∨ pos.x ≥ gridSize ∨ pos.y < 0 ∨ pos.y ≥ gridSize) ↔
      (pos.value.x < 0 ∨ pos.value.x ≥ Snake.gridSize ∨ pos.value.y < 0 ∨
        pos.value.y ≥ Snake.gridSize) := by
  have hzero : (0 : Int64).toInt = 0 := rfl
  simp only [ge_iff_le, Int64.lt_iff_toInt_lt, Int64.le_iff_toInt_le, toInt_gridSize, hzero,
    Position.value]

/-- **A step on machine integers** has the value of the step on numbers, and does not crash, if the
head is on the grid. -/
theorem updateGame_value {state : GameState} (h : state.value.snakeLst.first.OnGrid) :
    ∃ state', updateGame state = .ok state' ∧
      state'.value = Snake.updateGame state.value := by
  rw [updateGame, Snake.updateGame]
  by_cases hover : state.gameOver
  · have hover' : state.value.gameOver := hover
    rw [if_pos hover, if_pos hover']
    exact ⟨state, rfl, rfl⟩
  have hover' : ¬ state.value.gameOver := hover
  rw [if_neg hover, if_neg hover']
  obtain ⟨pos, hmove, hvalue⟩ := moveHead_value h state.direction
  have hvalue : Snake.moveHead state.value.snakeLst.first state.value.direction = pos.value :=
    hvalue.symm
  rw [hmove, hvalue]
  dsimp only [bind, Except.bind]
  -- The checks of the source, in its order: the wall, the body, the food.
  by_cases hgrid : pos.x < 0 ∨ pos.x ≥ gridSize ∨ pos.y < 0 ∨ pos.y ≥ gridSize
  · rw [if_pos hgrid, if_pos ((offGrid_iff pos).mp hgrid)]
    exact ⟨_, rfl, rfl⟩
  rw [if_neg hgrid, if_neg fun h => hgrid ((offGrid_iff pos).mpr h)]
  have hcontains : state.value.snakeLst.contains pos.value = state.snakeLst.contains pos :=
    state.snakeLst.contains_value pos
  rw [hcontains]
  by_cases hbody : state.snakeLst.contains pos
  · rw [if_pos hbody, if_pos hbody]
    exact ⟨_, rfl, rfl⟩
  rw [if_neg hbody, if_neg hbody]
  by_cases hfood : pos = state.foodPos
  · have hfood' : pos.value = state.value.foodPos := congrArg Position.value hfood
    -- On the grid no addition can overflow, and the remainder of a value that is not negative is
    -- the same on both sides.
    obtain ⟨hx, hx', hy, hy'⟩ : pos.value.OnGrid :=
      Trail.not_wall_iff.mp fun h => hgrid ((offGrid_iff pos).mpr h)
    have hx : 0 ≤ pos.x.toInt := hx
    have hy : 0 ≤ pos.y.toInt := hy
    obtain ⟨x, haddx, hvaluex⟩ := addI64_of_onGrid (by omega) hx'.le 3 (by decide)
    obtain ⟨y, haddy, hvaluey⟩ := addI64_of_onGrid (by omega) hy'.le 3 (by decide)
    rw [if_pos hfood, if_pos hfood', haddx, haddy]
    have hmodx : (x % gridSize).toInt = (pos.x.toInt + 3).tmod Snake.gridSize := by
      rw [Int64.toInt_mod, hvaluex, toInt_gridSize]
      rfl
    have hmody : (y % gridSize).toInt = (pos.y.toInt + 3).tmod Snake.gridSize := by
      rw [Int64.toInt_mod, hvaluey, toInt_gridSize]
      rfl
    refine ⟨_, rfl, ?_⟩
    simp only [GameState.value, Position.value, hmodx, hmody]
    rfl
  · have hfood' : ¬ pos.value = state.value.foodPos := fun h => hfood (Position.value_eq_iff.mp h)
    rw [if_neg hfood, if_neg hfood']
    refine ⟨_, rfl, ?_⟩
    simp only [GameState.value, NonEmptyList.value, List.map_dropLast]
    rfl

/-! ### Games -/

/-- **The whole game** on machine integers is the game on numbers, and never crashes. -/
theorem stateAt_value (input : ℕ → List UInt8) (n : ℕ) :
    ∃ state, stateAt input n = .ok state ∧ state.value = Snake.stateAt input n := by
  induction n with
  | zero =>
    have hinitial : initialState.value = Snake.initialState := by decide
    exact ⟨initialState, rfl, hinitial⟩
  | succ n ih =>
    obtain ⟨state, hstate, hvalue⟩ := ih
    have hpress :
        (press state (input n)).value = Snake.press (Snake.stateAt input n) (input n) := by
      rw [press_value, hvalue]
    have hgrid : (press state (input n)).value.snakeLst.first.OnGrid := by
      rw [hpress, (Trail.press_keeps _ _).1]
      exact (stateAt_ok input n).onGrid _ List.mem_cons_self
    obtain ⟨state', hstep, hvalue'⟩ := updateGame_value hgrid
    refine ⟨state', ?_, ?_⟩
    · rw [stateAt, hstate]
      exact hstep
    · rw [hvalue', hpress, Snake.stateAt, tick]

/-- **The score** is calculated without a crash. -/
theorem score_value {state : GameState} (h : state.value.Ok) :
    ∃ k, score state = .ok k ∧ k.toNat = state.value.snakeLst.len - Snake.initSnakeLen := by
  have hlen : state.value.snakeLst.len = 1 + state.snakeLst.rest.length := by
    show 1 + (state.snakeLst.rest.map Position.value).length = _
    rw [List.length_map]
  have hshort : state.value.snakeLst.len ≤ 400 := h.short
  have hlong : 3 ≤ state.value.snakeLst.len := h.long
  have hadd : Num.addU64 (.ofNat 1) (.ofNat state.snakeLst.rest.length) = _ :=
    Num.addU64_ofNat (by omega)
  have hinit : initSnakeLen = .ok (.ofNat 3) := by decide
  have hsub : Num.subU64 (.ofNat (1 + state.snakeLst.rest.length)) (.ofNat 3) = _ :=
    Num.subU64_ofNat (by omega) (by omega)
  refine ⟨.ofNat (1 + state.snakeLst.rest.length - 3), ?_, ?_⟩
  · rw [score, NonEmptyList.len, hinit]
    refine (congrArg (Except.bind · _) hadd).trans ?_
    exact hsub
  · rw [UInt64.toNat_ofNat_of_lt' (by
      show _ < 2 ^ 64
      omega), hlen]
    rfl

end BasicCli.Snake.Machine
