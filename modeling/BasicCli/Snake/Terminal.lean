import BasicCli.Snake.Basic
import BasicCli.StdIo.Error

/-!
# The snake game on a terminal

`examples/terminal-app-snake.roc`: how the game is drawn, and its loop, over a terminal that answers
reads and may refuse writes and the change of its mode.
-/

namespace BasicCli.Snake

/-- A terminal: what it is going to answer, and what has been done to it. -/
structure Terminal where
  /-- what `Stdin.bytes!` is going to answer, before the input ends -/
  input : List (Except IoError (List UInt8))
  /-- which of the writes to come fail, and how many characters get through before -/
  refusals : List (Option (IoError × ℕ))
  /-- which of the changes of the mode to come fail -/
  modes : List (Option IoError)
  written : Str
  raw : Bool

/-- How the program ends early. -/
inductive Fault
  | stdinErr (e : IoError)
  | stdoutErr (e : IoError)
  /-- the host panics, as a mode cannot be set -/
  | expectFailed (msg : String) (e : IoError)
  /-- arithmetic that overflows -/
  | crash
  /-- the model has gone through the loop as often as it was told to -/
  | outOfFuel

/-- What is done to a terminal and may fail. -/
abbrev TerminalM := ExceptT Fault (StateM Terminal)

/-! ### The platform -/

/-- `Stdin.bytes!`: nothing, when the input has ended. -/
def stdinBytes : TerminalM (List UInt8) := fun t =>
  match t.input with
  | [] => (.ok [], t)
  | .ok bytes :: input => (.ok bytes, { t with input })
  | .error e :: input => (.error (.stdinErr e), { t with input })

/-- `Stdout.write!` -/
def stdoutWrite (text : Str) : TerminalM Unit := fun t =>
  match t.refusals with
  | some (e, n) :: refusals =>
    (.error (.stdoutErr e), { t with refusals, written := t.written ++ text.take n })
  | none :: refusals => (.ok (), { t with refusals, written := t.written ++ text })
  | [] => (.ok (), { t with written := t.written ++ text })

/-- `Stdout.line!` -/
def stdoutLine (text : Str) : TerminalM Unit := stdoutWrite (text ++ ['\n'])

/-- A mode is set, as the host `expect`s it to be. -/
def setRawMode (raw : Bool) (msg : String) : TerminalM Unit := fun t =>
  match t.modes with
  | some e :: modes => (.error (.expectFailed msg e), { t with modes })
  | none :: modes => (.ok (), { t with modes, raw })
  | [] => (.ok (), { t with raw })

/-- The message of `roc_fx_tty_mode_raw`. -/
def enableMsg : String := "failed to enable raw mode"

/-- The message of `roc_fx_tty_mode_canonical`. -/
def disableMsg : String := "failed to disable raw mode"

/-- `Tty.enable_raw_mode!` -/
def enableRawMode : TerminalM Unit := setRawMode true enableMsg

/-- `Tty.disable_raw_mode!` -/
def disableRawMode : TerminalM Unit := setRawMode false disableMsg

/-! ### The game -/

/-- The text of `clear_screen!`. -/
def clearText : Str := "\x1b[2J\x1b[H".toList

/-- `clear_screen!` -/
def clearScreen : TerminalM Unit := stdoutWrite clearText

/-- The line of the controls. -/
def controlsText : Str := "\nControls: W A S D to move, Q to quit\n\r".toList

/-- `len(state.snake_lst) - init_snake_len`, of `U64`s. -/
def score (state : GameState) : TerminalM ℕ :=
  if initSnakeLen ≤ state.snakeLst.len then pure (state.snakeLst.len - initSnakeLen)
  else throw .crash

/-- The line of the score. -/
def scoreText (score : ℕ) : Str := "Score: ".toList ++ (toString score).toList ++ ['\r']

/-- `draw_game!` -/
def drawGame (state : GameState) : TerminalM Unit := do
  clearScreen
  stdoutLine controlsText
  stdoutLine (scoreText (← score state))
  let renderedGameStr := drawGamePure state
  stdoutLine (renderedGameStr ++ ['\r'])

/-- `game_loop!`, so many times. -/
def gameLoop : ℕ → GameState → TerminalM Unit
  | 0, _ => throw .outOfFuel
  | fuel + 1, state => do
    if state.gameOver then
      pure ()
    else
      drawGame state
      let inputBytes ← stdinBytes
      gameLoop fuel (tick state inputBytes)

/-- The last line. -/
def gameOverText : Str := "\n--- Game Over ---".toList

/-- `main!` -/
def main (fuel : ℕ) : TerminalM Unit := do
  enableRawMode
  gameLoop fuel initialState
  disableRawMode
  stdoutLine gameOverText

end BasicCli.Snake
