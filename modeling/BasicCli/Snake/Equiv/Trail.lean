import BasicCli.Snake.Basic
import Mathlib.Data.List.Chain

/-!
# Where the snake has been

A `Trail` says what the game is about: the places of the head, one after the other, and how often
the snake has eaten.  The snake of the program is the latest part of the trail, as long as the snake
was and has grown (`Trail.state_tick`), which gives the snake of any run by the places of its head
(`snake_eq`).
-/

namespace BasicCli.Snake

/-! ### Trails -/

/-- The cells of the snake, its head first. -/
def NonEmptyList.toList (list : NonEmptyList) : List Position := list.first :: list.rest

@[simp] theorem NonEmptyList.contains_iff {list : NonEmptyList} {pos : Position} :
    list.contains pos = true ↔ pos ∈ list.toList := by
  rw [contains, toList, List.mem_cons, Bool.or_eq_true, beq_iff_eq, List.contains_iff_mem, eq_comm]

/-- A position on the grid. -/
structure Position.OnGrid (pos : Position) : Prop where
  x_nonneg : 0 ≤ pos.x
  x_lt : pos.x < gridSize
  y_nonneg : 0 ≤ pos.y
  y_lt : pos.y < gridSize

instance (pos : Position) : Decidable pos.OnGrid :=
  decidable_of_iff (0 ≤ pos.x ∧ pos.x < gridSize ∧ 0 ≤ pos.y ∧ pos.y < gridSize)
    ⟨fun ⟨h₁, h₂, h₃, h₄⟩ => ⟨h₁, h₂, h₃, h₄⟩, fun ⟨h₁, h₂, h₃, h₄⟩ => ⟨h₁, h₂, h₃, h₄⟩⟩

/-- Where the food is when some has been eaten so often. -/
def foodAt (eaten : ℕ) : Position := ⟨(15 + 3 * eaten) % gridSize, (15 + 3 * eaten) % gridSize⟩

/-- Where the head is, where it was before, latest first, and how often the snake has eaten. -/
structure Trail where
  head : Position
  before : List Position
  eaten : ℕ
  direction : Direction
  gameOver : Bool
  long : initSnakeLen + eaten ≤ before.length + 1

namespace Trail

/-- The trail of the snake at the start. -/
def initial : Trail := ⟨⟨10, 10⟩, [⟨9, 10⟩, ⟨8, 10⟩], 0, .right, false, by decide⟩

/-- The part of the trail behind the head that the snake covers. -/
def body (t : Trail) : List Position := t.before.take (initSnakeLen - 1 + t.eaten)

/-- The state of the program. -/
def state (t : Trail) : GameState :=
  ⟨⟨t.head, t.body⟩, foodAt t.eaten, t.direction, t.gameOver⟩

/-- The head enters a cell of the grid that is free. -/
def enter (t : Trail) (pos : Position) : Trail where
  head := pos
  before := t.head :: t.before
  eaten := if pos = foodAt t.eaten then t.eaten + 1 else t.eaten
  direction := t.direction
  gameOver := t.gameOver
  long := by
    have hlong := t.long
    rw [List.length_cons]
    split_ifs <;> omega

/-- The snake moves, or the game is over. -/
def move (t : Trail) : Trail :=
  let pos := moveHead t.head t.direction
  if t.gameOver then t
  else if pos.OnGrid ∧ pos ∉ t.head :: t.body then t.enter pos
  else { t with gameOver := true }

/-- What a key does. -/
def press (t : Trail) (inputBytes : List UInt8) : Trail :=
  { t with
    direction := (Snake.press t.state inputBytes).direction
    gameOver := (Snake.press t.state inputBytes).gameOver }

/-- The trail when the loop has been gone through so many times. -/
def after (input : ℕ → List UInt8) : ℕ → Trail
  | 0 => initial
  | n + 1 => ((after input n).press (input n)).move

/-! ### The snake is the latest part of its trail -/

/-- The body is as long as what has been eaten makes it. -/
theorem length_body (t : Trail) : t.body.length = initSnakeLen - 1 + t.eaten := by
  have hlong := t.long
  rw [body, List.length_take, Nat.min_eq_left]
  have hlen : initSnakeLen = 3 := rfl
  omega

theorem body_ne_nil (t : Trail) : t.body ≠ [] := by
  have hlen : initSnakeLen = 3 := rfl
  refine List.ne_nil_of_length_pos ?_
  rw [length_body]
  omega

/-- The food moves three cells along the diagonal, and comes back in on the other side. -/
theorem foodAt_succ (eaten : ℕ) :
    (⟨((foodAt eaten).x + 3).tmod gridSize, ((foodAt eaten).y + 3).tmod gridSize⟩ : Position) =
      foodAt (eaten + 1) := by
  have hmod : ((15 + 3 * (eaten : ℤ)) % gridSize + 3).tmod gridSize =
      (15 + 3 * ((eaten + 1 : ℕ) : ℤ)) % gridSize := by
    rw [gridSize, Int.tmod_eq_emod_of_nonneg (by omega)]
    omega
  exact congrArg₂ Position.mk hmod hmod

@[simp] theorem enter_head (t : Trail) (pos : Position) : (t.enter pos).head = pos := rfl

theorem enter_eaten_food {t : Trail} {pos : Position} (hfood : pos = foodAt t.eaten) :
    (t.enter pos).eaten = t.eaten + 1 :=
  if_pos hfood

theorem enter_eaten_free {t : Trail} {pos : Position} (hfood : pos ≠ foodAt t.eaten) :
    (t.enter pos).eaten = t.eaten :=
  if_neg hfood

/-- A snake that eats keeps its last cell. -/
theorem body_enter_food {t : Trail} {pos : Position} (hfood : pos = foodAt t.eaten) :
    (t.enter pos).body = t.head :: t.body := by
  have hbefore : (t.enter pos).before = t.head :: t.before := rfl
  rw [body, hbefore, enter_eaten_food hfood, ← Nat.add_assoc, List.take_succ_cons, body]

/-- A snake that does not eat leaves its last cell. -/
theorem body_enter_free {t : Trail} {pos : Position} (hfood : pos ≠ foodAt t.eaten) :
    (t.enter pos).body = (t.head :: t.body).dropLast := by
  have hlen : initSnakeLen - 1 + t.eaten = (t.eaten + 1) + 1 := by
    have h : initSnakeLen = 3 := rfl
    omega
  have hbefore : (t.enter pos).before = t.head :: t.before := rfl
  have hlast : t.body.dropLast = t.before.take (t.eaten + 1) := by
    rw [List.dropLast_eq_take, t.length_body, body, List.take_take, hlen, Nat.add_sub_cancel,
      Nat.min_eq_left (Nat.le_succ _)]
  rw [List.dropLast_cons_of_ne_nil t.body_ne_nil, hlast, body, hbefore, enter_eaten_free hfood,
    hlen, List.take_succ_cons]

/-- A key does not move anything. -/
theorem press_keeps (state : GameState) (inputBytes : List UInt8) :
    (Snake.press state inputBytes).snakeLst = state.snakeLst ∧
      (Snake.press state inputBytes).foodPos = state.foodPos := by
  unfold Snake.press
  split <;> exact ⟨rfl, rfl⟩

theorem state_press (t : Trail) (inputBytes : List UInt8) :
    (t.press inputBytes).state = Snake.press t.state inputBytes := by
  obtain ⟨hsnake, hfood⟩ := press_keeps t.state inputBytes
  exact GameState.ext hsnake.symm hfood.symm rfl rfl

theorem not_wall_iff {pos : Position} :
    ¬ (pos.x < 0 ∨ pos.x ≥ gridSize ∨ pos.y < 0 ∨ pos.y ≥ gridSize) ↔ pos.OnGrid := by
  constructor
  · intro h
    exact ⟨by omega, by omega, by omega, by omega⟩
  · rintro ⟨hx, hx', hy, hy'⟩
    omega

/-- **The program moves the snake along its trail.** -/
theorem state_move (t : Trail) : t.move.state = updateGame t.state := by
  rw [move, updateGame]
  -- `update_game` and `move` make the same checks, so they are taken together.
  by_cases hover : t.gameOver = true
  · rw [if_pos hover, if_pos (show t.state.gameOver = true from hover)]
  rw [if_neg hover, if_neg (show ¬ t.state.gameOver = true from hover)]
  have hpos : moveHead t.state.snakeLst.first t.state.direction =
      moveHead t.head t.direction := rfl
  have hcells : t.state.snakeLst.toList = t.head :: t.body := rfl
  rw [hpos]
  dsimp only
  generalize moveHead t.head t.direction = pos
  by_cases hgrid : pos.OnGrid
  · rw [if_neg (not_wall_iff.mpr hgrid)]
    by_cases hself : pos ∈ t.head :: t.body
    · rw [if_pos (NonEmptyList.contains_iff.mpr hself), if_neg fun h => h.2 hself]
      rfl
    rw [if_neg (fun h => hself (NonEmptyList.contains_iff.mp h)), if_pos ⟨hgrid, hself⟩]
    by_cases hfood : pos = foodAt t.eaten
    · rw [if_pos (show pos = t.state.foodPos from hfood), state, body_enter_food hfood]
      rw [enter_eaten_food hfood, ← foodAt_succ, ← hfood]
      rfl
    · rw [if_neg (show ¬ pos = t.state.foodPos from hfood), state, body_enter_free hfood]
      rw [enter_eaten_free hfood]
      rfl
  · rw [if_pos (not_not.mp (mt not_wall_iff.mp hgrid)), if_neg fun h => hgrid h.1]
    rfl

/-- **The trails run as the game does.** On the ticks. -/
theorem state_after (input : ℕ → List UInt8) (n : ℕ) : (after input n).state = stateAt input n := by
  induction n with
  | zero => rfl
  | succ n ih => rw [after, state_move, state_press, ih, stateAt, tick]

/-! ### Moves -/

/-- All that a move can do. -/
theorem move_cases (t : Trail) :
    (t.gameOver = false ∧ (moveHead t.head t.direction).OnGrid ∧
      moveHead t.head t.direction ∉ t.head :: t.body ∧
      t.move = t.enter (moveHead t.head t.direction)) ∨
    t.move = { t with gameOver := true } := by
  unfold move
  dsimp only
  rcases hover : t.gameOver with _ | _
  · rw [if_neg Bool.false_ne_true]
    split_ifs with hfree
    · exact .inl ⟨rfl, hfree.1, hfree.2, rfl⟩
    · exact .inr rfl
  · rw [if_pos rfl]
    refine .inr ?_
    rw [← hover]

/-- A move after which the game goes on has found no wall and no body. -/
theorem move_of_goes_on {t : Trail} (h : t.move.gameOver = false) :
    t.gameOver = false ∧ t.move = t.enter (moveHead t.head t.direction) := by
  obtain ⟨hover, -, -, hmove⟩ | hmove := t.move_cases
  · exact ⟨hover, hmove⟩
  · rw [hmove] at h
    cases h

/-- The game goes on only if it went on before. -/
theorem goes_on_of_press {t : Trail} {inputBytes : List UInt8}
    (h : (t.press inputBytes).gameOver = false) : t.gameOver = false := by
  have hpress : (Snake.press t.state inputBytes).gameOver = false := h
  unfold Snake.press at hpress
  split at hpress
  all_goals first | exact hpress | cases hpress

/-- A tick after which the game goes on puts the head into the next cell. -/
theorem after_succ_of_goes_on {input : ℕ → List UInt8} {n : ℕ}
    (h : (after input (n + 1)).gameOver = false) :
    (after input n).gameOver = false ∧
      after input (n + 1) = ((after input n).press (input n)).enter
        (moveHead (after input n).head ((after input n).press (input n)).direction) := by
  obtain ⟨hpress, hmove⟩ := move_of_goes_on h
  exact ⟨goes_on_of_press hpress, hmove⟩

end Trail

/-! ### Runs -/

/-- Where the head has been by the `n`-th time through the loop, latest first. -/
def headsUpTo (input : ℕ → List UInt8) (n : ℕ) : List Position :=
  (List.range (n + 1)).reverse.map fun i => (stateAt input i).snakeLst.first

/-- How often the head has come to the food by the `n`-th time through the loop. -/
def eatenBy (input : ℕ → List UInt8) (n : ℕ) : ℕ :=
  (List.range n).countP fun i =>
    decide ((stateAt input (i + 1)).snakeLst.first = (stateAt input i).foodPos)

theorem headsUpTo_succ (input : ℕ → List UInt8) (n : ℕ) :
    headsUpTo input (n + 1) = (stateAt input (n + 1)).snakeLst.first :: headsUpTo input n := by
  rw [headsUpTo, List.range_succ, List.reverse_concat, List.map_cons, headsUpTo]

/-- A tick eats iff the head has come to where the food was. -/
theorem eatenBy_succ (input : ℕ → List UInt8) (n : ℕ) :
    eatenBy input (n + 1) = eatenBy input n +
      if (stateAt input (n + 1)).snakeLst.first = (stateAt input n).foodPos then 1 else 0 := by
  rw [eatenBy, List.range_succ, List.countP_append, List.countP_singleton, eatenBy]
  simp only [decide_eq_true_eq]

namespace Trail

/-- As long as the game goes on, the trail is that of the heads. -/
theorem after_eq {input : ℕ → List UInt8} {n : ℕ} (h : (after input n).gameOver = false) :
    (after input n).head :: (after input n).before =
        headsUpTo input n ++ initialState.snakeLst.rest ∧
      (after input n).eaten = eatenBy input n := by
  -- On the ticks; the snake has not stopped on any of them.
  induction n with
  | zero => exact ⟨rfl, rfl⟩
  | succ n ih =>
    obtain ⟨hn, hafter⟩ := after_succ_of_goes_on h
    obtain ⟨hplaces, heaten⟩ := ih hn
    have hfirst : (stateAt input (n + 1)).snakeLst.first = (after input (n + 1)).head := by
      rw [← state_after]
      rfl
    have hfood : (stateAt input n).foodPos = foodAt (after input n).eaten := by
      rw [← state_after]
      rfl
    constructor
    · rw [headsUpTo_succ, List.cons_append, ← hplaces, hfirst, hafter]
      rfl
    · rw [eatenBy_succ, hfirst, hfood, hafter, ← heaten, enter_head]
      -- Where the head goes decides whether this tick eats.
      by_cases heats : moveHead (after input n).head ((after input n).press (input n)).direction =
          foodAt (after input n).eaten
      · rw [if_pos heats]
        exact enter_eaten_food heats
      · rw [if_neg heats]
        exact enter_eaten_free heats

end Trail

/-- **The snake is where its head was last**, as long as it was and has eaten since, and the food is
on the diagonal. -/
theorem snake_eq {input : ℕ → List UInt8} {n : ℕ} (h : (stateAt input n).gameOver = false) :
    (stateAt input n).snakeLst.toList =
        (headsUpTo input n ++ initialState.snakeLst.rest).take (initSnakeLen + eatenBy input n) ∧
      (stateAt input n).snakeLst.len = initSnakeLen + eatenBy input n ∧
      (stateAt input n).foodPos = foodAt (eatenBy input n) := by
  rw [← Trail.state_after] at h ⊢
  obtain ⟨hplaces, heaten⟩ := Trail.after_eq h
  rw [← hplaces, ← heaten]
  have hlen : initSnakeLen + (Trail.after input n).eaten =
      initSnakeLen - 1 + (Trail.after input n).eaten + 1 := by
    have h : initSnakeLen = 3 := rfl
    omega
  refine ⟨?_, ?_, rfl⟩
  · rw [hlen, List.take_succ_cons]
    rfl
  · rw [hlen, ← Trail.length_body, Nat.add_comm]
    rfl

/-- To the right, and then down to the food. -/
def toTheFood (n : ℕ) : List UInt8 := if n < 5 then [100] else [115]

/-- The snake that has come to its first food. -/
theorem snake_eq_toTheFood :
    (stateAt toTheFood 11).snakeLst.toList = [⟨15, 16⟩, ⟨15, 15⟩, ⟨15, 14⟩, ⟨15, 13⟩] ∧
      (stateAt toTheFood 11).snakeLst.len = 4 ∧ (stateAt toTheFood 11).foodPos = ⟨18, 18⟩ := by
  have heaten : eatenBy toTheFood 11 = 1 := by decide
  have h := @snake_eq toTheFood 11 (by decide)
  rw [heaten] at h
  exact h

end BasicCli.Snake
