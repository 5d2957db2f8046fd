import BasicCli.Run.Leaves
import BasicCli.Snake.Equiv.Grid
import BasicCli.Snake.Terminal
import Mathlib.Data.Nat.Find

/-!
# A whole game

Without keys the snake runs into a wall, so the game is over soon after the input ends
(`exists_gameOver`), and `main!` ends.  What it has written by then are the pictures of the states
up to the last (`main_leaves`).
-/

namespace BasicCli.Snake

open Run

/-! ### The end of the game -/

/-- How far it is to the wall. -/
def Direction.room : Direction → Position → ℤ
  | up, pos => pos.y
  | down, pos => gridSize - 1 - pos.y
  | left, pos => pos.x
  | right, pos => gridSize - 1 - pos.x

theorem room_bounds {pos : Position} (h : pos.OnGrid) (direction : Direction) :
    0 ≤ direction.room pos ∧ direction.room pos < gridSize := by
  obtain ⟨hx, hx', hy, hy'⟩ := h
  cases direction <;> simp only [Direction.room] <;> omega

theorem room_moveHead (direction : Direction) (pos : Position) :
    direction.room (moveHead pos direction) = direction.room pos - 1 := by
  cases direction <;> simp only [Direction.room, moveHead] <;> omega

/-- Without keys, the snake moves on. -/
theorem after_succ_of_nil {input : ℕ → List UInt8} {n : ℕ} (hinput : input n = [])
    (h : (Trail.after input (n + 1)).gameOver = false) :
    (Trail.after input (n + 1)).direction = (Trail.after input n).direction ∧
      (Trail.after input (n + 1)).head =
        moveHead (Trail.after input n).head (Trail.after input n).direction := by
  obtain ⟨-, hafter⟩ := Trail.after_succ_of_goes_on h
  rw [hafter, hinput]
  exact ⟨rfl, rfl⟩

theorem gameOver_of_room {input : ℕ → List UInt8} {length m n : ℕ} (hn : length ≤ n)
    (hinput : ∀ i, length ≤ i → input i = [])
    (hroom : (Trail.after input n).direction.room (Trail.after input n).head ≤ m) :
    ∃ N ≤ n + m + 1, (stateAt input N).gameOver = true := by
  -- Without input the head goes straight on, and each tick takes one cell of the room before it.
  induction m generalizing n with
  | zero =>
    refine ⟨n + 1, le_rfl, ?_⟩
    rw [← Trail.state_after]
    by_contra hover
    obtain ⟨hdirection, hhead⟩ := after_succ_of_nil (hinput n hn) (Bool.eq_false_iff.mpr hover)
    have hgrid := (Trail.after_ok input (n + 1)).onGrid _ List.mem_cons_self
    have hnonneg := (room_bounds hgrid (Trail.after input n).direction).1
    rw [hhead, room_moveHead] at hnonneg
    omega
  | succ m ih =>
    by_cases hover : (Trail.after input (n + 1)).gameOver = true
    · exact ⟨n + 1, by omega, by rwa [← Trail.state_after]⟩
    obtain ⟨hdirection, hhead⟩ := after_succ_of_nil (hinput n hn) (Bool.eq_false_iff.mpr hover)
    obtain ⟨N, hN, hend⟩ := ih (n := n + 1) (Nat.le_succ_of_le hn) (by
      rw [hdirection, hhead, room_moveHead]
      omega)
    exact ⟨N, by omega, hend⟩

/-- **The game is over soon** after the input ends. -/
theorem exists_gameOver {input : ℕ → List UInt8} {length : ℕ}
    (hinput : ∀ i, length ≤ i → input i = []) :
    ∃ N ≤ length + 20, (stateAt input N).gameOver = true ∧
      ∀ i < N, (stateAt input i).gameOver = false := by
  have hgrid := (Trail.after_ok input length).onGrid _ List.mem_cons_self
  have hlt := (room_bounds hgrid (Trail.after input length).direction).2
  have hsize : gridSize = 20 := rfl
  have hend : ∃ N, (stateAt input N).gameOver = true ∧ N ≤ length + 20 := by
    obtain ⟨N, hN, hover⟩ := gameOver_of_room (m := 19) le_rfl hinput (by omega)
    exact ⟨N, hover, by omega⟩
  obtain ⟨hover, hN⟩ := Nat.find_spec hend
  refine ⟨Nat.find hend, hN, hover, fun i hi => ?_⟩
  have hmin := Nat.find_min hend hi
  exact Bool.eq_false_iff.mpr fun h => hmin ⟨h, by omega⟩

/-! ### What is written -/

/-- The error is one that the terminal has in store. -/
def Terminal.Gives (t : Terminal) : Fault → Prop
  | .stdinErr e => .error e ∈ t.input
  | .stdoutErr e => ∃ n, some (e, n) ∈ t.refusals
  | .expectFailed _ e => some e ∈ t.modes
  | .crash => False
  | .outOfFuel => False

/-- `t'` comes after `t`. -/
structure Terminal.Precedes (t t' : Terminal) : Prop where
  input : t'.input <:+ t.input
  refusals : t'.refusals <:+ t.refusals
  modes : t'.modes <:+ t.modes

theorem Terminal.Precedes.refl (t : Terminal) : t.Precedes t :=
  ⟨List.suffix_rfl, List.suffix_rfl, List.suffix_rfl⟩

theorem Terminal.Precedes.trans {t₁ t₂ t₃ : Terminal} (h : t₁.Precedes t₂) (h' : t₂.Precedes t₃) :
    t₁.Precedes t₃ :=
  ⟨h'.input.trans h.input, h'.refusals.trans h.refusals, h'.modes.trans h.modes⟩

theorem Terminal.Precedes.gives {t t' : Terminal} (h : t.Precedes t') {e : Fault}
    (he : t'.Gives e) : t.Gives e := by
  cases e with
  | stdinErr e => exact h.input.subset he
  | stdoutErr e =>
    obtain ⟨n, hn⟩ := he
    exact ⟨n, h.refusals.subset hn⟩
  | expectFailed msg e => exact h.modes.subset he
  | crash => exact he
  | outOfFuel => exact he

/-- The error of a read or a write, and no panic. -/
def Fault.IsAnswer : Fault → Prop
  | .stdinErr _ | .stdoutErr _ => True
  | .expectFailed _ _ | .crash | .outOfFuel => False

/-- From `t`, `x` writes the text and ends with `Q`, or it writes the beginning of the text and
fails as a read or a write of the terminal does.  The mode is left alone. -/
def Writes {α : Type} (x : TerminalM α) (t : Terminal) (text : Str) (Q : α → Terminal → Prop) :
    Prop :=
  Leaves x t
    (fun a t' => t.Precedes t' ∧ t'.raw = t.raw ∧ t'.written = t.written ++ text ∧ Q a t')
    fun e t' => (t.Gives e ∧ e.IsAnswer) ∧ t'.raw = t.raw ∧
      ∃ w, w <+: text ∧ t'.written = t.written ++ w

section

variable {α β : Type} {t : Terminal} {text text' : Str}

theorem writes_bind {x : TerminalM β} {f : β → TerminalM α} {R : β → Terminal → Prop}
    {Q : α → Terminal → Prop} (hx : Writes x t text R)
    (hf : ∀ b t', R b t' → Writes (f b) t' text' Q) : Writes (x >>= f) t (text ++ text') Q := by
  refine leaves_bind (R := fun b t' =>
    t.Precedes t' ∧ t'.raw = t.raw ∧ t'.written = t.written ++ text ∧ R b t') ?_ ?_
  · refine Leaves.mono hx (fun _ _ h => h) ?_
    rintro e t' ⟨he, hraw, w, hw, hwritten⟩
    exact ⟨he, hraw, w, hw.trans (List.prefix_append _ _), hwritten⟩
  · rintro b t' ⟨hprecedes, hraw, hwritten, hR⟩
    refine Leaves.mono (hf b t' hR) ?_ ?_
    · rintro a t'' ⟨hprecedes', hraw', hwritten', hQ⟩
      refine ⟨hprecedes.trans hprecedes', hraw'.trans hraw, ?_, hQ⟩
      rw [hwritten', hwritten, List.append_assoc]
    · rintro e t'' ⟨⟨he, hanswer⟩, hraw', w, hw, hwritten'⟩
      refine ⟨⟨hprecedes.gives he, hanswer⟩, hraw'.trans hraw, text ++ w, ?_, ?_⟩
      · exact (List.prefix_append_right_inj text).mpr hw
      · rw [hwritten', hwritten, List.append_assoc]

theorem writes_pure {a : α} {Q : α → Terminal → Prop} (h : Q a t) : Writes (pure a) t [] Q :=
  leaves_pure ⟨.refl t, rfl, (List.append_nil _).symm, h⟩

theorem stdoutWrite_writes (text : Str) :
    Writes (stdoutWrite text) t text fun _ t' => t'.input = t.input := by
  rcases hrefusals : t.refusals with _ | ⟨_ | ⟨e, n⟩, refusals⟩
  · have hx : stdoutWrite text t = (.ok (), { t with written := t.written ++ text }) := by
      rw [stdoutWrite, hrefusals]
    exact leaves_of_ok hx ⟨⟨List.suffix_rfl, List.suffix_rfl, List.suffix_rfl⟩, rfl, rfl, rfl⟩
  · have hx : stdoutWrite text t = (.ok (), { t with refusals, written := t.written ++ text }) := by
      rw [stdoutWrite, hrefusals]
    have hsuffix : refusals <:+ t.refusals := by
      rw [hrefusals]
      exact List.suffix_cons _ _
    exact leaves_of_ok hx ⟨⟨List.suffix_rfl, hsuffix, List.suffix_rfl⟩, rfl, rfl, rfl⟩
  · have hx : stdoutWrite text t = (.error (.stdoutErr e),
        { t with refusals, written := t.written ++ text.take n }) := by
      rw [stdoutWrite, hrefusals]
    have hmem : some (e, n) ∈ t.refusals := by
      rw [hrefusals]
      exact List.mem_cons_self
    exact leaves_of_error hx ⟨⟨⟨n, hmem⟩, trivial⟩, rfl, text.take n, List.take_prefix _ _, rfl⟩

end

/-- What the terminal answers to the `n`-th read, if it does not fail. -/
def Terminal.inputAt (t : Terminal) (n : ℕ) : List UInt8 :=
  match t.input[n]? with
  | some (.ok bytes) => bytes
  | _ => []

theorem stdinBytes_writes {t t₀ : Terminal} {n : ℕ} (h : t.input = t₀.input.drop n) :
    Writes stdinBytes t [] fun bytes t' =>
      bytes = t₀.inputAt n ∧ t'.input = t₀.input.drop (n + 1) := by
  have hfirst : t.input[0]? = t₀.input[n]? := by rw [h, List.getElem?_drop, Nat.add_zero]
  have htail : t.input.tail = t₀.input.drop (n + 1) := by rw [h, List.tail_drop]
  -- The input has ended, fails, or gives bytes.
  rcases hinput : t.input with _ | ⟨e | bytes, input⟩
  · have hx : stdinBytes t = (.ok [], t) := by rw [stdinBytes, hinput]
    rw [hinput] at hfirst htail
    refine leaves_of_ok hx ⟨.refl t, rfl, (List.append_nil _).symm, ?_, hinput.trans htail⟩
    rw [Terminal.inputAt, ← hfirst]
    rfl
  · have hx : stdinBytes t = (.error (.stdinErr e), { t with input }) := by rw [stdinBytes, hinput]
    have hmem : .error e ∈ t.input := by
      rw [hinput]
      exact List.mem_cons_self
    exact leaves_of_error hx
      ⟨⟨hmem, trivial⟩, rfl, [], List.nil_prefix, (List.append_nil _).symm⟩
  · have hx : stdinBytes t = (.ok bytes, { t with input }) := by rw [stdinBytes, hinput]
    have hsuffix : input <:+ t.input := by
      rw [hinput]
      exact List.suffix_cons _ _
    rw [hinput] at hfirst htail
    refine leaves_of_ok hx ⟨⟨hsuffix, List.suffix_rfl, List.suffix_rfl⟩, rfl,
      (List.append_nil _).symm, ?_, htail⟩
    rw [Terminal.inputAt, ← hfirst]
    rfl

/-- A mode is set, or the host panics and leaves the terminal in the mode that it is in. -/
theorem setRawMode_leaves (raw : Bool) (msg : String) (t : Terminal) :
    Leaves (setRawMode raw msg) t
      (fun _ t' => t.Precedes t' ∧ t'.input = t.input ∧ t'.written = t.written ∧ t'.raw = raw)
      fun e t' => (∃ err, e = .expectFailed msg err ∧ t.Gives e) ∧ t'.written = t.written ∧
        t'.raw = t.raw := by
  rcases hmodes : t.modes with _ | ⟨_ | e, modes⟩
  · have hx : setRawMode raw msg t = (.ok (), { t with raw }) := by rw [setRawMode, hmodes]
    exact leaves_of_ok hx ⟨⟨List.suffix_rfl, List.suffix_rfl, List.suffix_rfl⟩, rfl, rfl, rfl⟩
  · have hx : setRawMode raw msg t = (.ok (), { t with modes, raw }) := by rw [setRawMode, hmodes]
    have hsuffix : modes <:+ t.modes := by
      rw [hmodes]
      exact List.suffix_cons _ _
    exact leaves_of_ok hx ⟨⟨List.suffix_rfl, List.suffix_rfl, hsuffix⟩, rfl, rfl, rfl⟩
  · have hx : setRawMode raw msg t = (.error (.expectFailed msg e), { t with modes }) := by
      rw [setRawMode, hmodes]
    have hmem : some e ∈ t.modes := by
      rw [hmodes]
      exact List.mem_cons_self
    exact leaves_of_error hx ⟨⟨e, rfl, hmem⟩, rfl, rfl⟩

/-! ### Pictures -/

/-- What is written for a state. -/
def frame (state : GameState) : Str :=
  clearText ++ (controlsText ++ ['\n'] ++
    (scoreText (state.snakeLst.len - initSnakeLen) ++ ['\n'] ++
      (drawGamePure state ++ ['\r'] ++ ['\n'])))

/-- What is written for `k` states from the `n`-th on. -/
def frames (input : ℕ → List UInt8) (n k : ℕ) : Str :=
  (List.range' n k).flatMap fun i => frame (stateAt input i)

/-- A picture is written as one frame. -/
theorem drawGame_writes {state : GameState} (h : state.Ok) (t : Terminal) :
    Writes (drawGame state) t (frame state) fun _ t' => t'.input = t.input := by
  have hscore : score state = pure (state.snakeLst.len - initSnakeLen) := if_pos h.long
  rw [drawGame, hscore, pure_bind, frame]
  refine writes_bind (stdoutWrite_writes clearText) fun _ t₁ h₁ => ?_
  refine writes_bind (stdoutWrite_writes _) fun _ t₂ h₂ => ?_
  refine writes_bind (stdoutWrite_writes _) fun _ t₃ h₃ => ?_
  have hlast := stdoutWrite_writes (t := t₃) (drawGamePure state ++ ['\r'] ++ ['\n'])
  rw [h₃, h₂, h₁] at hlast
  exact hlast

/-- **The loop** writes the frames until the game is over. On how many ticks are left. -/
theorem gameLoop_writes {t t₀ : Terminal} {n k fuel : ℕ}
    (hover : (stateAt t₀.inputAt (n + k)).gameOver = true)
    (hgoes : ∀ i < n + k, (stateAt t₀.inputAt i).gameOver = false) (hfuel : k < fuel)
    (hinput : t.input = t₀.input.drop n) :
    Writes (gameLoop fuel (stateAt t₀.inputAt n)) t (frames t₀.inputAt n k) fun _ _ => True := by
  -- On the number of states that are still to be drawn.
  induction k generalizing t n fuel with
  | zero =>
    obtain ⟨fuel, rfl⟩ := Nat.exists_eq_add_of_le' hfuel
    rw [Nat.add_zero] at hover
    rw [gameLoop, if_pos hover]
    exact writes_pure trivial
  | succ k ih =>
    obtain ⟨fuel, rfl⟩ := Nat.exists_eq_add_of_le' (Nat.le_trans (Nat.succ_pos _) hfuel)
    have hgo : ¬ (stateAt t₀.inputAt n).gameOver = true := by
      rw [hgoes n (by omega)]
      exact Bool.false_ne_true
    rw [gameLoop, if_neg hgo, frames, List.range'_succ, List.flatMap_cons]
    refine writes_bind (drawGame_writes (stateAt_ok _ n) t) fun _ t₁ h₁ => ?_
    refine writes_bind (stdinBytes_writes (h₁.trans hinput)) ?_
    rintro bytes t₂ ⟨rfl, h₂⟩
    have hnext : n + 1 + k = n + (k + 1) := by omega
    exact ih (by rwa [hnext]) (by rwa [hnext]) (by omega) h₂

/-- How `main!` fails from the terminal `t`, when `text` is drawn before the game is over: the host
panics at the first change of the mode, a read or a write fails during the game, the host panics at
the second change, or the last write fails. -/
inductive FailsLeaving (t : Terminal) (text : Str) : Fault → Terminal → Prop
  | enable {e : IoError} {t' : Terminal} (raw : t'.raw = t.raw) (written : t'.written = t.written) :
      FailsLeaving t text (.expectFailed enableMsg e) t'
  | game {e : Fault} {t' : Terminal} {w : Str} (answer : e.IsAnswer) (raw : t'.raw = true)
      (begins : w <+: text) (written : t'.written = t.written ++ w) : FailsLeaving t text e t'
  | disable {e : IoError} {t' : Terminal} (raw : t'.raw = true)
      (written : t'.written = t.written ++ text) :
      FailsLeaving t text (.expectFailed disableMsg e) t'
  | over {e : Fault} {t' : Terminal} {w : Str} (answer : e.IsAnswer) (raw : t'.raw = false)
      (begins : w <+: gameOverText ++ ['\n']) (written : t'.written = t.written ++ text ++ w) :
      FailsLeaving t text e t'

/-- **A whole game**: `main!` ends, with all pictures drawn and the terminal as it was, or fails as
the terminal does, its host by a panic if a mode cannot be set.  When it fails between the two
changes of the mode, the terminal is left in raw mode. -/
theorem main_leaves (t : Terminal) {fuel : ℕ} (hfuel : t.input.length + 20 < fuel) :
    ∃ N ≤ t.input.length + 20,
      ((stateAt t.inputAt N).gameOver = true ∧
        ∀ i < N, (stateAt t.inputAt i).gameOver = false) ∧
      Leaves (main fuel) t
        (fun _ t' => t'.raw = false ∧
          t'.written = t.written ++ frames t.inputAt 0 N ++ gameOverText ++ ['\n'])
        fun e t' => t.Gives e ∧ FailsLeaving t (frames t.inputAt 0 N) e t' := by
  have hnil : ∀ i, t.input.length ≤ i → t.inputAt i = [] := by
    intro i hi
    rw [Terminal.inputAt, List.getElem?_eq_none hi]
  obtain ⟨N, hN, hover, hgoes⟩ := exists_gameOver hnil
  refine ⟨N, hN, ⟨hover, hgoes⟩, ?_⟩
  rw [main]
  refine leaves_bind (R := fun _ t₁ => t.Precedes t₁ ∧ t₁.input = t.input ∧
    t₁.written = t.written ∧ t₁.raw = true) ?_ ?_
  · refine (setRawMode_leaves true enableMsg t).mono (fun _ _ h => h) ?_
    rintro _ t' ⟨⟨e, rfl, he⟩, hwritten, hraw⟩
    exact ⟨he, .enable hraw hwritten⟩
  -- The terminal is raw; the loop starts with nothing of the input taken.
  rintro _ t₁ ⟨hprecedes, hinput, hwritten, hraw⟩
  have hloop : Writes (gameLoop fuel initialState) t₁ (frames t.inputAt 0 N) fun _ _ => True :=
    gameLoop_writes (n := 0) (by rwa [Nat.zero_add]) (by rwa [Nat.zero_add]) (by omega) hinput
  refine leaves_bind (R := fun _ t₂ => t.Precedes t₂ ∧ t₂.raw = true ∧
    t₂.written = t.written ++ frames t.inputAt 0 N) ?_ ?_
  · refine hloop.mono ?_ ?_
    · rintro _ t' ⟨hprecedes', hraw', hwritten', -⟩
      exact ⟨hprecedes.trans hprecedes', hraw'.trans hraw, by rw [hwritten', hwritten]⟩
    · rintro e t' ⟨⟨he, hanswer⟩, hraw', w, hw, hwritten'⟩
      exact ⟨hprecedes.gives he,
        .game hanswer (hraw'.trans hraw) hw (by rw [hwritten', hwritten])⟩
  rintro _ t₂ ⟨hprecedes, hraw, hwritten⟩
  refine leaves_bind (R := fun _ t₃ => t.Precedes t₃ ∧ t₃.raw = false ∧
    t₃.written = t.written ++ frames t.inputAt 0 N) ?_ ?_
  · refine (setRawMode_leaves false disableMsg t₂).mono ?_ ?_
    · rintro _ t' ⟨hprecedes', -, hwritten', hraw'⟩
      exact ⟨hprecedes.trans hprecedes', hraw', hwritten'.trans hwritten⟩
    · rintro _ t' ⟨⟨e, rfl, he⟩, hwritten', hraw'⟩
      exact ⟨hprecedes.gives he, .disable (hraw'.trans hraw) (hwritten'.trans hwritten)⟩
  -- The terminal is as it was, and only the last line is left to write.
  rintro _ t₃ ⟨hprecedes, hraw, hwritten⟩
  refine (stdoutWrite_writes (gameOverText ++ ['\n'])).mono ?_ ?_
  · rintro _ t' ⟨-, hraw', hwritten', -⟩
    refine ⟨hraw'.trans hraw, ?_⟩
    rw [hwritten', hwritten, List.append_assoc _ gameOverText]
  · rintro e t' ⟨⟨he, hanswer⟩, hraw', w, hw, hwritten'⟩
    exact ⟨hprecedes.gives he,
      .over hanswer (hraw'.trans hraw) hw (by rw [hwritten', hwritten])⟩

/-- A player who gives up. -/
def quits : Terminal := ⟨[.ok [113]], [], [], [], false⟩

theorem main_leaves_quits :
    Leaves (main 22) quits
      (fun _ t' => t'.raw = false ∧
        t'.written = frame initialState ++ gameOverText ++ ['\n']) fun _ _ => False := by
  obtain ⟨N, -, ⟨hover, hgoes⟩, h⟩ := @main_leaves quits 22 (by decide)
  have hN : N = 1 := by
    have hstart : (stateAt quits.inputAt 0).gameOver = false := by decide
    have hend : (stateAt quits.inputAt 1).gameOver = true := by decide
    by_contra hne
    rcases Nat.lt_or_gt_of_ne hne with hlt | hgt
    · obtain rfl : N = 0 := by omega
      rw [hstart] at hover
      cases hover
    · rw [hgoes 1 hgt] at hend
      cases hend
  subst hN
  refine h.mono ?_ ?_
  · rintro _ t' ⟨hraw, hwritten⟩
    refine ⟨hraw, hwritten.trans ?_⟩
    have hone : frames quits.inputAt 0 1 = frame initialState ++ [] := rfl
    rw [hone, List.append_nil]
    rfl
  · rintro e t' ⟨he, -⟩
    cases e with
    | stdinErr e => simp [Terminal.Gives, quits] at he
    | stdoutErr e => simp [Terminal.Gives, quits] at he
    | expectFailed msg e => simp [Terminal.Gives, quits] at he
    | crash => exact he
    | outOfFuel => exact he

end BasicCli.Snake
