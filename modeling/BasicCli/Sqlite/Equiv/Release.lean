import BasicCli.Sqlite.Equiv.Lifetime
import BasicCli.Sqlite.Equiv.Tracked
import Mathlib.Order.BooleanAlgebra.Set

/-!
# The statements of SQLite in a run

* `runHeap_accounted`: the statements that there are, are those in the boxes that have not been
  deallocated, each in one box and for one thread.
* `calls_use_own`: a call passes to SQLite what its own thread has prepared, and nothing that has
  been finalised.
-/

namespace BasicCli.Sqlite

open Ownership Run

variable {θ W : Type} {live : W → Set ℕ} {sqlite sqlite' : Sqlite3 W} {base : Set ℕ} {t : θ}
  {box : ℕ} {dealloced : List ℕ}

/-! ### What there is in the boxes -/

section

variable {s s' : SqliteHost θ W} {stmt stmt' : SqliteStatement θ}

theorem handles_of_found (hbox : box ∉ dealloced) (h : s.statements[box]? = some stmt) :
    (⟨s, dealloced⟩ : StatementHeap θ W).handles box = stmt.handles := by
  simp [StatementHeap.handles, hbox, h]

/-- A call changes what one box holds. -/
theorem handles_set (hbox : box ∉ dealloced) (hlt : box < s.statements.length)
    (h : s'.statements = s.statements.set box stmt) :
    (⟨s', dealloced⟩ : StatementHeap θ W).handles =
      Function.update (⟨s, dealloced⟩ : StatementHeap θ W).handles box stmt.handles := by
  funext box'
  by_cases heq : box' = box
  · subst heq
    rw [Function.update_self]
    exact handles_of_found hbox (by rw [h, List.getElem?_set_self hlt])
  · rw [Function.update_of_ne heq]
    simp only [StatementHeap.handles, h, List.getElem?_set_ne (Ne.symm heq)]

/-- A new box holds the statement that has been prepared for it. -/
theorem handles_append_box (hbox : s.statements.length ∉ dealloced)
    (h : s'.statements = s.statements ++ [stmt]) :
    (⟨s', dealloced⟩ : StatementHeap θ W).handles =
      Function.update (⟨s, dealloced⟩ : StatementHeap θ W).handles s.statements.length
        stmt.handles := by
  funext box'
  by_cases heq : box' = s.statements.length
  · subst heq
    rw [Function.update_self]
    exact handles_of_found hbox (by rw [h, List.getElem?_concat_length])
  · rw [Function.update_of_ne heq]
    rcases Nat.lt_or_gt_of_ne heq with hlt | hgt
    · simp only [StatementHeap.handles, h, List.getElem?_append_left hlt]
    · have hnone : s.statements[box']? = none := List.getElem?_eq_none hgt.le
      have hnone' : s'.statements[box']? = none := by
        rw [h]
        exact List.getElem?_eq_none (by rw [List.length_append, List.length_singleton]; omega)
      simp only [StatementHeap.handles, hnone, hnone']

/-- A box that is deallocated holds nothing. -/
theorem handles_dealloc (h : s'.statements = s.statements) :
    (⟨s', box :: dealloced⟩ : StatementHeap θ W).handles =
      Function.update (⟨s, dealloced⟩ : StatementHeap θ W).handles box [] := by
  funext box'
  by_cases heq : box' = box
  · subst heq
    rw [Function.update_self]
    simp [StatementHeap.handles]
  · rw [Function.update_of_ne heq]
    simp [StatementHeap.handles, heq, h]

end

/-! ### The invariant -/

variable [DecidableEq θ]

/-- What holds between two things that a program does. -/
structure HeapInv (live : W → Set ℕ) (base : Set ℕ) (s : StatementHeap θ W) : Prop where
  host : SqliteInv s.host
  dealloced : ∀ box ∈ s.dealloced, box < s.host.statements.length
  accounted : Accounted base (live s.host.world) s.handles

theorem HeapInv.init (w : W) : HeapInv live (live w) (.init w : StatementHeap θ W) where
  host := .init w
  dealloced _ h := absurd h List.not_mem_nil
  accounted := .init fun box => by simp [StatementHeap.handles, StatementHeap.init, SqliteHost.init]

section

variable {s s' : SqliteHost θ W}

/-- What changes no box and no statement keeps the invariant. -/
theorem HeapInv.of_live_eq (h : HeapInv live base ⟨s, dealloced⟩) (hs' : SqliteInv s')
    (hstatements : s'.statements = s.statements) (hlive : live s'.world = live s.world) :
    HeapInv live base ⟨s', dealloced⟩ where
  host := hs'
  dealloced box hbox := by
    simp only [hstatements]
    exact h.dealloced box hbox
  accounted := by
    have hhandles : (⟨s', dealloced⟩ : StatementHeap θ W).handles =
        (⟨s, dealloced⟩ : StatementHeap θ W).handles := by
      funext box
      simp only [StatementHeap.handles, hstatements]
    rw [hhandles]
    simp only [hlive]
    exact h.accounted

/-- A thread has begun to call: what it has for the statement is in the box. -/
theorem HeapInv.begun (h : HeapInv live base ⟨s, dealloced⟩) (hbox : box ∉ dealloced)
    {stmt stmt' : SqliteStatement θ} {p : ℕ} (hbegun : Begun t box s stmt stmt' p s')
    (hacquires : Acquires (live s.world) stmt.handles (live s'.world) stmt'.handles) :
    HeapInv live base ⟨s', dealloced⟩ ∧ Usable live s'.world p := by
  obtain ⟨hlt, -⟩ := List.getElem?_eq_some_iff.mp hbegun.found
  have hhandles := handles_set hbox hlt hbegun.statements
  have haccounted :
      Accounted base (live s'.world) (⟨s', dealloced⟩ : StatementHeap θ W).handles := by
    rw [hhandles]
    -- A first use gives the box the new statement; any other gives it none.
    refine h.accounted.acquires ?_
    rw [handles_of_found hbox hbegun.found]
    exact hacquires
  refine ⟨⟨hbegun.inv, fun box' hbox' => ?_, haccounted⟩, ?_⟩
  · simp only [hbegun.statements, List.length_set]
    exact h.dealloced box' hbox'
  · by_cases hp : p = 0
    · exact .inl hp
    · refine .inr (haccounted.mem_live (o := box) ?_)
      rw [hhandles, Function.update_self]
      exact mem_handles_iff.mpr ⟨hp, t, Lookup.mem_of_lookup hbegun.lookup⟩

/-! ### Calls -/

variable (hlaws : LifetimeLaws sqlite live) (hagree : AgreeOn (Usable live) sqlite sqlite')

include hlaws hagree

/-- A call that is given a box does nothing to other boxes, and makes one statement at most. -/
theorem boxCall_agrees (h : HeapInv live base ⟨s, dealloced⟩) {action : SqliteAction}
    (haction : action.box? = some box) (hbox : box ∉ dealloced) :
    Agrees (act sqlite (t, action)) (act sqlite' (t, action)) s
      (fun _ s' => HeapInv live base ⟨s', dealloced⟩) := by
  rw [act_eq_body haction, act_eq_body haction]
  refine agrees_bind (localStmt_agrees hlaws hagree h.host) ?_
  rintro ⟨stmt', p⟩ s₁ ⟨stmt, hbegun, hacquires⟩
  obtain ⟨h₁, hp⟩ := h.begun hbox hbegun hacquires
  -- What is done with the statement does not finalise it.
  have hkeeps {w w' : W} (hp : Usable live w p) (hstep : SqliteStep sqlite p w w') :
      Usable live w' p :=
    hp.of_eq (hstep.live_eq hlaws hp)
  refine (body_agrees hagree hkeeps h₁.host hp action).mono fun _ s' hdoes => ?_
  exact h₁.of_live_eq hdoes.inv hdoes.statements (hdoes.live_eq hlaws hp)

/-! ### Dropping a statement -/

omit [DecidableEq θ] in
/-- Its statements are finalised, one after the other, and each once. -/
theorem foldl_finalize {dbPath query : RocStr} {entries : List (θ × ℕ)} {w : W}
    (hnodup : (⟨dbPath, query, entries⟩ : SqliteStatement θ).handles.Nodup)
    (hlive : ∀ p ∈ (⟨dbPath, query, entries⟩ : SqliteStatement θ).handles, p ∈ live w) :
    entries.foldl (fun w entry => sqlite.finalize w entry.2) w =
        entries.foldl (fun w entry => sqlite'.finalize w entry.2) w ∧
      live (entries.foldl (fun w entry => sqlite.finalize w entry.2) w) =
        live w \ {p | p ∈ (⟨dbPath, query, entries⟩ : SqliteStatement θ).handles} := by
  induction entries generalizing w with
  | nil =>
    refine ⟨rfl, ?_⟩
    ext p
    simp [SqliteStatement.handles]
  | cons entry entries ih =>
    obtain ⟨t, p⟩ := entry
    rw [List.foldl_cons, List.foldl_cons]
    -- To finalize null does nothing; anything else is live, and is so no more.
    by_cases hp : p = 0
    · subst hp
      have husable : Usable live w 0 := .inl rfl
      have hsame : live (sqlite.finalize w 0) = live w := by
        rw [hlaws.finalize w 0 husable]
        exact Set.sdiff_singleton_eq_self (hlaws.null w)
      rw [← hagree.finalize w 0 husable]
      rw [handles_cons_null] at hnodup hlive ⊢
      rw [← hsame]
      exact ih (w := sqlite.finalize w 0) hnodup (by rwa [hsame])
    · rw [handles_cons hp] at hnodup hlive ⊢
      obtain ⟨hnot, hnodup⟩ := List.nodup_cons.mp hnodup
      have husable : Usable live w p := .inr (hlive p List.mem_cons_self)
      have hfinalize := hlaws.finalize w p husable
      rw [← hagree.finalize w p husable]
      obtain ⟨heq, hrest⟩ := ih (w := sqlite.finalize w p) hnodup fun p' hp' => by
        rw [hfinalize]
        refine ⟨hlive p' (List.mem_cons_of_mem p hp'), fun hsame => hnot ?_⟩
        rwa [← Set.mem_singleton_iff.mp hsame]
      refine ⟨heq, ?_⟩
      rw [hrest, hfinalize]
      ext p'
      simp only [Set.mem_sdiff, Set.mem_singleton_iff, Set.mem_ofPred_eq, List.mem_cons]
      tauto

omit [DecidableEq θ] in
theorem dropStatement_agrees {stmt : SqliteStatement θ} (hnodup : stmt.handles.Nodup)
    (hlive : ∀ p ∈ stmt.handles, p ∈ live s.world) :
    Agrees (dropStatement sqlite stmt) (dropStatement sqlite' stmt) s (fun _ s' =>
      ∃ w, s' = { s with world := w } ∧ live w = live s.world \ {p | p ∈ stmt.handles}) := by
  obtain ⟨heq, hdropped⟩ := foldl_finalize hlaws hagree hnodup hlive
  refine ⟨?_, _, rfl, hdropped⟩
  rw [dropStatement, dropStatement, call, call, heq]

/-- **`prepare`** makes a statement and a box to hold it, or drops it where there is no room. -/
theorem prepare_agrees (h : HeapInv live base ⟨s, dealloced⟩) {dbPath query : RocStr}
    {room : Bool} :
    Agrees (prepare sqlite t dbPath query room) (prepare sqlite' t dbPath query room) s
      (fun _ s' => HeapInv live base ⟨s', dealloced⟩) := by
  have hbox : s.statements.length ∉ dealloced := fun hmem => by
    have hlt := h.dealloced _ hmem
    simp at hlt
  have hempty : (⟨s, dealloced⟩ : StatementHeap θ W).handles s.statements.length = [] := by
    simp [StatementHeap.handles]
  have hprepared : Ensures (threadLocalPrepare sqlite t ⟨dbPath, query, []⟩) s _ _ :=
    (threadLocalPrepare_ensures h.host fun _ _ hmem => absurd hmem List.not_mem_nil).and
      (threadLocalPrepare_prepares hlaws h.host fun _ _ hmem => absurd hmem List.not_mem_nil)
  -- What is left is what is in the boxes, with one more or the same.
  suffices hrest : Agrees (prepare sqlite t dbPath query room) (prepare sqlite' t dbPath query room)
      s (fun _ s' => s.statements.length ≤ s'.statements.length ∧
        Accounted base (live s'.world) (⟨s', dealloced⟩ : StatementHeap θ W).handles) by
    refine (hrest.and (prepare_ensures h.host)).mono ?_
    rintro answer s' ⟨⟨hle, haccounted⟩, hmeets, -⟩
    exact ⟨hmeets.inv, fun box hmem => (h.dealloced box hmem).trans_le hle, haccounted⟩
  rw [prepare, prepare, ← threadLocalPrepare_eq_of_agree hagree]
  refine agrees_bind ⟨rfl, hprepared.mono (fun _ _ h => h) fun _ _ => trivial⟩ ?_
  rintro ⟨err | p, stmt⟩ s₁ ⟨hthread, hprepares⟩
  · have h₁ := h.of_live_eq hthread.inv hthread.statements (hprepares.unchanged err rfl)
    exact agrees_pure ⟨by rw [hthread.statements], h₁.accounted⟩
  · -- What has been made is accounted for in the box that is to come.
    have haccounted : Accounted base (live s₁.world)
        (Function.update (⟨s, dealloced⟩ : StatementHeap θ W).handles s.statements.length
          stmt.handles) := by
      refine h.accounted.acquires ?_
      rw [hempty]
      exact hprepares.acquires
    have hhandles : Function.update (⟨s, dealloced⟩ : StatementHeap θ W).handles
        s.statements.length stmt.handles s.statements.length = stmt.handles :=
      Function.update_self ..
    dsimp only
    split_ifs
    · refine agrees_get_bind (agrees_modify_bind (agrees_pure ⟨?_, ?_⟩))
      · simp [hthread.statements]
      · have hnew : ({ s₁ with statements := s₁.statements ++ [stmt] } :
            SqliteHost θ W).statements = s.statements ++ [stmt] := by
          rw [hthread.statements]
        rw [handles_append_box hbox hnew]
        exact haccounted
    · refine agrees_bind (dropStatement_agrees hlaws hagree ?_ ?_) ?_
      · rw [← hhandles]
        exact haccounted.nodup _
      · rw [← hhandles]
        exact fun p hp => haccounted.mem_live hp
      · rintro - s₂ ⟨w, rfl, hw⟩
        have hreleased := haccounted.release s.statements.length
        rw [hhandles, Function.update_idem, ← hempty, Function.update_eq_self, ← hw] at hreleased
        refine agrees_pure ⟨by rw [hthread.statements], ?_⟩
        have hsame : (⟨{ s₁ with world := w }, dealloced⟩ : StatementHeap θ W).handles =
            (⟨s, dealloced⟩ : StatementHeap θ W).handles := by
          funext box
          simp only [StatementHeap.handles, hthread.statements]
        rw [hsame]
        exact hreleased

/-! ### Any calls and deallocations -/

/-- **A call**: one case for each function. -/
theorem act_agrees (h : HeapInv live base ⟨s, dealloced⟩) {action : SqliteAction}
    (hbox : ∀ box ∈ action.box?, box ∉ dealloced) :
    Agrees (act sqlite (t, action)) (act sqlite' (t, action)) s
      (fun _ s' => HeapInv live base ⟨s', dealloced⟩) := by
  rcases haction : action.box? with _ | box
  · -- Only `prepare` is not given a box.
    cases action with
    | prepare => exact agrees_map (prepare_agrees hlaws hagree h)
    | _ => cases haction
  · exact boxCall_agrees hlaws hagree h haction (hbox box haction)

end

section

variable (hlaws : LifetimeLaws sqlite live) (hagree : AgreeOn (Usable live) sqlite sqlite')
  {s : StatementHeap θ W}

include hlaws hagree

/-- A call on the heap, which is refused for a box that has been deallocated. -/
theorem heapCall_agrees (h : HeapInv live base s) {action : SqliteAction} :
    Agrees (heapCall sqlite t action) (heapCall sqlite' t action) s
      (fun _ s' => HeapInv live base s') := by
  by_cases hany : action.box?.any (· ∈ s.dealloced)
  · exact agrees_of_error (if_pos hany) (if_pos hany)
  · have hact := act_agrees (t := t) hlaws hagree h fun box hbox hmem => hany (by
      rw [Option.mem_def.mp hbox]
      simpa using hmem)
    exact hact.zoom (if_neg hany) (if_neg hany)

/-- **`roc_dealloc`** drops what the box holds, once. -/
theorem rocDealloc_agrees (h : HeapInv live base s) :
    Agrees (rocDealloc sqlite box) (rocDealloc sqlite' box) s
      (fun _ s' => HeapInv live base s') := by
  by_cases hbox : box ∈ s.dealloced
  · exact agrees_of_error (if_pos hbox) (if_pos hbox)
  · rcases hfound : s.host.statements[box]? with _ | stmt
    · have hnone (sqlite : Sqlite3 W) : rocDealloc sqlite box s = .error .undefined := by
        simp only [rocDealloc, if_neg hbox, hfound]
      exact agrees_of_error (hnone sqlite) (hnone sqlite')
    · have hsome (sqlite : Sqlite3 W) : rocDealloc sqlite box s =
          (dropStatement sqlite stmt s.host).map fun r => (r.1, ⟨r.2, box :: s.dealloced⟩) := by
        simp only [rocDealloc, if_neg hbox, hfound]
      have hhandles : s.handles box = stmt.handles := handles_of_found hbox hfound
      have hdrop := dropStatement_agrees hlaws hagree (hhandles ▸ h.accounted.nodup box)
        fun p hp => h.accounted.mem_live (hhandles.symm ▸ hp)
      refine (hdrop.mono ?_).zoom (hsome sqlite) (hsome sqlite')
      rintro - s' ⟨w, rfl, hw⟩
      obtain ⟨hlt, -⟩ := List.getElem?_eq_some_iff.mp hfound
      -- The box holds nothing any more, and what it held is live no more.
      have hreleased := h.accounted.release box
      have hnew : (⟨{ s.host with world := w }, box :: s.dealloced⟩ : StatementHeap θ W).handles =
          Function.update s.handles box [] := handles_dealloc rfl
      rw [hhandles, ← hw, ← hnew] at hreleased
      exact ⟨h.host.withWorld w, List.forall_mem_cons.mpr ⟨hlt, h.dealloced⟩, hreleased⟩

/-- **One step**, a call or a deallocation, keeps the invariant whichever of the two SQLites is
under it. -/
theorem heapAct_agrees (h : HeapInv live base s) (a : HeapAction θ) :
    Agrees (heapAct sqlite a) (heapAct sqlite' a) s (fun _ s' => HeapInv live base s') := by
  cases a with
  | call t action => exact agrees_map (heapCall_agrees hlaws hagree h)
  | dealloc box => exact agrees_map (rocDealloc_agrees hlaws hagree h)

/-- **A run**: the two SQLites are used alike, and the invariant is kept. On the actions. -/
theorem runHeap_agrees (w : W) (actions : List (HeapAction θ)) :
    run (heapAct sqlite) actions (.init w) = run (heapAct sqlite') actions (.init w) ∧
      ∀ answers s, run (heapAct sqlite) actions (.init w) = .ok (answers, s) →
        HeapInv live (live w) s :=
  run_agrees (fun a _ h => heapAct_agrees hlaws hagree h a) (HeapInv.init w)

end

/-! ### Runs -/

/-- **No statement is lost, and none is held twice**: whatever threads call and whichever boxes are
deallocated in between, the statements that SQLite has made and not finalised are those in the boxes
that have not been deallocated, each in one box and there of one thread. -/
theorem runHeap_accounted (hlaws : LifetimeLaws sqlite live) (w : W)
    (actions : List (HeapAction θ)) (answers : List (Option SqliteAnswer)) (s : StatementHeap θ W)
    (h : run (heapAct sqlite) actions (.init w) = .ok (answers, s)) :
    Accounted (live w) (live s.host.world) s.handles :=
  ((runHeap_agrees hlaws (.refl _ sqlite) w actions).2 answers s h).accounted

/-- The statements 1 and 2 of the first box are finalised. -/
theorem runHeap_accounted_refRelease :
    ∃ answers s, run (heapAct trackedSqlite) refRelease (.init .empty) = .ok (answers, s) ∧
      s.host.world.stmts = [3] ∧
      Accounted TrackedWorld.empty.live s.host.world.live s.handles := by
  have hstmts : (run (heapAct trackedSqlite) refRelease (.init .empty)).map
      (fun r => r.2.host.world.stmts) = .ok [3] := by
    decide +kernel
  rcases hrun : run (heapAct trackedSqlite) refRelease (.init .empty) with e | ⟨answers, s⟩
  · rw [hrun] at hstmts
    cases hstmts
  · rw [hrun] at hstmts
    exact ⟨answers, s, rfl, Except.ok.inj hstmts,
      runHeap_accounted lifetimeLaws_tracked .empty refRelease answers s hrun⟩

/-- **A call uses what its own thread has prepared, and while it is there.**  What SQLite would do
with statements that have been finalised makes no difference to any calls and deallocations; and
behind them, what it would do with any statement but that which a thread finds in the box, or puts
there at its first use, makes no difference to its call. -/
theorem calls_use_own (hlaws : LifetimeLaws sqlite live) (w : W)
    (actions : List (HeapAction θ)) :
    (∀ sqlite', AgreeOn (Usable live) sqlite sqlite' →
      run (heapAct sqlite) actions (.init w) = run (heapAct sqlite') actions (.init w)) ∧
    ∀ answers s, run (heapAct sqlite) actions (.init w) = .ok (answers, s) →
      ∀ t action box stmt p s₁, action.box? = some box → box ∉ s.dealloced →
        localStmt sqlite t box s.host = .ok ((stmt, p), s₁) →
        s₁.statements[box]? = some stmt ∧ (t, p) ∈ stmt.stmt ∧ Usable live s₁.world p ∧
          ∀ sqlite', AgreeOn (fun _ q => q = p) sqlite sqlite' →
            heapAct sqlite (.call t action) s = heapAct sqlite' (.call t action) s := by
  refine ⟨fun sqlite' hagree => (runHeap_agrees hlaws hagree w actions).1, ?_⟩
  intro answers s hrun t action box stmt p s₁ haction hbox hlocal
  have h : HeapInv live (live w) ⟨s.host, s.dealloced⟩ :=
    (runHeap_agrees hlaws (.refl _ sqlite) w actions).2 answers s hrun
  have hbegins : Ensures (localStmt sqlite t box) s.host _ _ :=
    (localStmt_agrees hlaws (.refl (Usable live) sqlite) h.host).2
  obtain ⟨stmt₀, hbegun, hacquires⟩ := hbegins.of_ok hlocal
  -- After the first part of the call the statement is in the box, under this thread.
  refine ⟨hbegun.box_eq, Lookup.mem_of_lookup hbegun.lookup, ?_, fun sqlite' hagree => ?_⟩
  · exact (h.begun hbox hbegun hacquires).2
  · have hact := act_eq_of_agree h.host haction hlocal hagree
    refine map_eq_map ?_
    rw [heapCall, heapCall, hact]

/-- A SQLite that refuses finalised statements does not come to one, and the other thread uses for
the second box its own statement, the fourth, only. -/
theorem calls_use_own_refRelease :
    run (heapAct trackedSqlite) refRelease (.init .empty) =
        run (heapAct strictSqlite) refRelease (.init .empty) ∧
      ∃ answers s, run (heapAct trackedSqlite) refRelease (.init .empty) = .ok (answers, s) ∧
        ∀ sqlite', AgreeOn (fun _ q => q = 4) trackedSqlite sqlite' →
          heapAct trackedSqlite (.call 1 (.step 1)) s =
            heapAct sqlite' (.call 1 (.step 1)) s := by
  obtain ⟨hsame, huse⟩ := calls_use_own lifetimeLaws_tracked .empty refRelease
  refine ⟨hsame strictSqlite agreeOn_strict, ?_⟩
  have hfound : (run (heapAct trackedSqlite) refRelease (.init .empty)).map (fun r =>
      ((localStmt trackedSqlite 1 1 r.2.host).toOption.map fun r => r.1.2, r.2.dealloced)) =
        .ok (some 4, [0]) := by
    decide +kernel
  rcases hrun : run (heapAct trackedSqlite) refRelease (.init .empty) with e | ⟨answers, s⟩
  · rw [hrun] at hfound
    cases hfound
  rw [hrun] at hfound
  obtain ⟨hlocal, hdealloced⟩ := Prod.mk.inj (Except.ok.inj hfound)
  refine ⟨answers, s, rfl, fun sqlite' hagree => ?_⟩
  rcases hstmt : localStmt trackedSqlite 1 1 s.host with e | ⟨⟨stmt, p⟩, s₁⟩
  · rw [hstmt] at hlocal
    cases hlocal
  · rw [hstmt] at hlocal
    obtain rfl : p = 4 := Option.some.inj hlocal
    have hbox : 1 ∉ s.dealloced := by
      rw [show s.dealloced = [0] from hdealloced]
      decide
    exact (huse answers s hrun 1 (.step 1) 1 stmt 4 s₁ rfl hbox hstmt).2.2.2 sqlite' hagree

end BasicCli.Sqlite
