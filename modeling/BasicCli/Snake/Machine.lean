import BasicCli.Num.Basic
import BasicCli.Snake.Basic

/-!
# The snake game on machine integers

The functions of `examples/terminal-app-snake.roc` that calculate, with the coordinates as `I64`s
and the lengths as `U64`s: where a result has no room, the program crashes.
-/

namespace BasicCli.Snake.Machine

/-! ### State -/

/-- `Position` -/
structure Position where
  x : Int64
  y : Int64
deriving DecidableEq

/-- `NonEmptyList` -/
structure NonEmptyList where
  first : Position
  rest : List Position
deriving DecidableEq

namespace NonEmptyList

/-- `contains` -/
def contains (list : NonEmptyList) (pos : Position) : Bool :=
  list.first == pos || list.rest.contains pos

/-- `prepend` -/
def prepend (list : NonEmptyList) (pos : Position) : NonEmptyList := ⟨pos, list.first :: list.rest⟩

/-- `len` -/
def len (list : NonEmptyList) : Except Crash UInt64 := Num.addU64 1 (.ofNat list.rest.length)

end NonEmptyList

/-- `GameState` -/
structure GameState where
  snakeLst : NonEmptyList
  foodPos : Position
  direction : Direction
  gameOver : Bool

/-- `initial_state` -/
def initialState : GameState where
  snakeLst := ⟨⟨10, 10⟩, [⟨9, 10⟩, ⟨8, 10⟩]⟩
  foodPos := ⟨15, 15⟩
  direction := .right
  gameOver := false

/-- `grid_size` -/
def gridSize : Int64 := 20

/-- `init_snake_len` -/
def initSnakeLen : Except Crash UInt64 := initialState.snakeLst.len

/-! ### Moves -/

/-- `move_head` -/
def moveHead (head : Position) : Direction → Except Crash Position
  | .up => (Num.subI64 head.y 1).map fun y => { head with y }
  | .down => (Num.addI64 head.y 1).map fun y => { head with y }
  | .left => (Num.subI64 head.x 1).map fun x => { head with x }
  | .right => (Num.addI64 head.x 1).map fun x => { head with x }

/-- `update_game` -/
def updateGame (state : GameState) : Except Crash GameState :=
  if state.gameOver then .ok state
  else do
    let newHeadPos ← moveHead state.snakeLst.first state.direction
    if newHeadPos.x < 0 ∨ newHeadPos.x ≥ gridSize ∨ newHeadPos.y < 0 ∨ newHeadPos.y ≥ gridSize then
      .ok { state with gameOver := true }
    else if state.snakeLst.contains newHeadPos then
      .ok { state with gameOver := true }
    else if newHeadPos = state.foodPos then
      let newSnakeLst := state.snakeLst.prepend newHeadPos
      let x ← Num.addI64 newHeadPos.x 3
      let y ← Num.addI64 newHeadPos.y 3
      .ok { state with snakeLst := newSnakeLst, foodPos := ⟨x % gridSize, y % gridSize⟩ }
    else
      let snakeLst := state.snakeLst.prepend newHeadPos
      .ok { state with snakeLst := ⟨snakeLst.first, snakeLst.rest.dropLast⟩ }

/-- What `game_loop!` makes of the bytes that it has read, before it calls `update_game`. -/
def press (state : GameState) : List UInt8 → GameState
  | [119] => { state with direction := .up }
  | [115] => { state with direction := .down }
  | [97] => { state with direction := .left }
  | [100] => { state with direction := .right }
  | [113] => { state with gameOver := true }
  | _ => state

/-- The state when the loop has been gone through so many times, having read `input`. -/
def stateAt (input : ℕ → List UInt8) : ℕ → Except Crash GameState
  | 0 => .ok initialState
  | n + 1 => (stateAt input n).bind fun state => updateGame (press state (input n))

/-- `len(state.snake_lst) - init_snake_len` -/
def score (state : GameState) : Except Crash UInt64 := do
  let len ← state.snakeLst.len
  let initLen ← initSnakeLen
  Num.subU64 len initLen

end BasicCli.Snake.Machine
