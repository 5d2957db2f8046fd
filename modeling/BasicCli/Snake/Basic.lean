import BasicCli.CargoVersions.Basic
import Mathlib.Data.Int.Order.Basic

/-!
# The snake game

`examples/terminal-app-snake.roc`, up to what it does with the terminal: the snake, what a key does
to it, and the picture of the grid.
-/

namespace BasicCli.Snake

/-! ### State -/

/-- `Position`.  Its coordinates are `I64`s, which makes no difference (`Machine.stateAt_value`). -/
structure Position where
  x : ℤ
  y : ℤ
deriving DecidableEq, Repr

/-- `[Up, Down, Left, Right]` -/
inductive Direction
  | up
  | down
  | left
  | right
deriving DecidableEq, Repr

/-- `NonEmptyList` -/
structure NonEmptyList where
  first : Position
  rest : List Position
deriving DecidableEq, Repr

namespace NonEmptyList

/-- `contains` -/
def contains (list : NonEmptyList) (pos : Position) : Bool :=
  list.first == pos || list.rest.contains pos

/-- `prepend` -/
def prepend (list : NonEmptyList) (pos : Position) : NonEmptyList := ⟨pos, list.first :: list.rest⟩

/-- `len` -/
def len (list : NonEmptyList) : ℕ := 1 + list.rest.length

end NonEmptyList

/-- `GameState` -/
@[ext] structure GameState where
  snakeLst : NonEmptyList
  foodPos : Position
  direction : Direction
  gameOver : Bool
deriving DecidableEq, Repr

/-- `initial_state` -/
def initialState : GameState where
  snakeLst := ⟨⟨10, 10⟩, [⟨9, 10⟩, ⟨8, 10⟩]⟩
  foodPos := ⟨15, 15⟩
  direction := .right
  gameOver := false

/-- `grid_size` -/
def gridSize : ℤ := 20

/-- `init_snake_len` -/
def initSnakeLen : ℕ := initialState.snakeLst.len

/-! ### Moves -/

/-- `move_head` -/
def moveHead (head : Position) : Direction → Position
  | .up => { head with y := head.y - 1 }
  | .down => { head with y := head.y + 1 }
  | .left => { head with x := head.x - 1 }
  | .right => { head with x := head.x + 1 }

/-- `update_game` -/
def updateGame (state : GameState) : GameState :=
  if state.gameOver then state
  else
    let newHeadPos := moveHead state.snakeLst.first state.direction
    if newHeadPos.x < 0 ∨ newHeadPos.x ≥ gridSize ∨ newHeadPos.y < 0 ∨ newHeadPos.y ≥ gridSize then
      { state with gameOver := true }
    else if state.snakeLst.contains newHeadPos then
      { state with gameOver := true }
    else if newHeadPos = state.foodPos then
      let newSnakeLst := state.snakeLst.prepend newHeadPos
      -- Roc's `%` has the sign of the dividend.
      let newFoodPos := ⟨(newHeadPos.x + 3).tmod gridSize, (newHeadPos.y + 3).tmod gridSize⟩
      { state with snakeLst := newSnakeLst, foodPos := newFoodPos }
    else
      let snakeLst := state.snakeLst.prepend newHeadPos
      { state with snakeLst := ⟨snakeLst.first, snakeLst.rest.dropLast⟩ }

/-- What `game_loop!` makes of the bytes that it has read, before it calls `update_game`. -/
def press (state : GameState) : List UInt8 → GameState
  | [119] => { state with direction := .up }
  | [115] => { state with direction := .down }
  | [97] => { state with direction := .left }
  | [100] => { state with direction := .right }
  | [113] => { state with gameOver := true }
  | _ => state

/-- The new state of `game_loop!`, by the bytes that it has read. -/
def tick (state : GameState) (inputBytes : List UInt8) : GameState :=
  updateGame (press state inputBytes)

/-- The state when the loop has been gone through so many times, having read `input`. -/
def stateAt (input : ℕ → List UInt8) : ℕ → GameState
  | 0 => initialState
  | n + 1 => tick (stateAt input n) (input n)

/-! ### Pictures -/

/-- `List.range({ start: At 0, end: Before grid_size })` -/
def gridRange : List ℤ := (List.range gridSize.toNat).map Int.ofNat

/-- What is drawn for a position. -/
def cell (state : GameState) (pos : Position) : Char :=
  if state.snakeLst.contains pos then
    if pos = state.snakeLst.first then 'O' else 'o'
  else if pos = state.foodPos then '*'
  else '.'

/-- `draw_game_pure` -/
def drawGamePure (state : GameState) : Str :=
  "\r\n".toList.intercalate (gridRange.map fun yy => gridRange.map fun xx => cell state ⟨xx, yy⟩)

end BasicCli.Snake
