import BasicCli.Sqlite.Equiv.Calls
import BasicCli.Sqlite.Reference

/-!
# The handles of connections

`sqlite3_open_v2` answers a handle even when it fails, unless there is no memory for one, and the
handle must be closed.  `crates/roc_sqlite` closes none, so what has been answered stays open.

* `handlesHeld_iff`: the open handles are those in `SQLITE_CONNECTIONS`, in every state that
  `prepare`s reach, iff each opening that fails answers null.
-/

namespace BasicCli.Sqlite

open Run

variable {θ W : Type} {sqlite : Sqlite3 W} {s s' : SqliteHost θ W} {t : θ}

section

variable [DecidableEq θ]

/-- The handle that a call answers to the thread: that of a connection, or that of a failure if it
is not null. -/
def SqliteCall.handle? (t : θ) : SqliteCall θ → Option ℕ
  | .openV2 t' _ err connection =>
    if t' = t ∧ (err = sqliteOk ∨ connection ≠ 0) then some connection else none
  | .prepareV2 .. | .errmsg .. => none

/-- The handles that have been opened by the thread.  None of them is closed. -/
def SqliteHost.openHandles (s : SqliteHost θ W) (t : θ) : List ℕ :=
  s.calls.filterMap (·.handle? t)

/-- The handles in `SQLITE_CONNECTIONS` of the thread. -/
def SqliteHost.heldHandles (s : SqliteHost θ W) (t : θ) : List ℕ := (s.entries t).map Prod.snd

/-- The handles that each thread has opened are those that it holds, one by one. -/
def SqliteHost.HandlesHeld (s : SqliteHost θ W) : Prop := ∀ t, s.openHandles t = s.heldHandles t

end

/-- A `prepare` of a thread. -/
structure PrepareCall (θ : Type) where
  thread : θ
  dbPath : RocStr
  query : RocStr
  room : Bool

/-- Make it. -/
def PrepareCall.call [DecidableEq θ] (sqlite : Sqlite3 W) (c : PrepareCall θ) :
    SqliteM θ W (Except SqliteError ℕ) :=
  prepare sqlite c.thread c.dbPath c.query c.room

/-- If the `prepare` opens the database and fails to, there is no handle. -/
def PrepareCall.FailsWithNull (sqlite : Sqlite3 W) (c : PrepareCall θ) (s : SqliteHost θ W) :
    Prop :=
  (s.entries c.thread).lookup c.dbPath.bytes = none → 0 ∉ c.dbPath.bytes →
    let ((err, connection), _) := sqlite.openV2 s.world c.dbPath.bytes
    (err ≠ sqliteOk → connection = 0)

/-! ### Handles that are lost -/

/-- An opening that has failed and answered a handle. -/
def SqliteCall.Leaks : SqliteCall θ → Prop
  | .openV2 _ _ err connection => err ≠ sqliteOk ∧ connection ≠ 0
  | .prepareV2 .. | .errmsg .. => False

section

variable [DecidableEq θ]

/-- A call that adds a connection answers its handle. -/
theorem SqliteCall.handle?_of_opened? {c : SqliteCall θ} {entry : List UInt8 × ℕ}
    (h : c.opened? t = some entry) : c.handle? t = some entry.2 := by
  rcases c with ⟨t', path, err, connection⟩ | _ | _
  · rw [opened?] at h
    split_ifs at h with hok
    cases h
    exact if_pos ⟨hok.1, .inl hok.2⟩
  · cases h
  · cases h

theorem SqliteCall.handle?_of_not_leaks {c : SqliteCall θ} (h : ¬ c.Leaks) (t : θ) :
    c.handle? t = (c.opened? t).map Prod.snd := by
  rcases c with ⟨t', path, err, connection⟩ | _ | _
  · have hor : err = sqliteOk ∨ connection ≠ 0 ↔ err = sqliteOk := by
      refine or_iff_left_of_imp fun hconnection => ?_
      by_contra herr
      exact h ⟨herr, hconnection⟩
    rw [handle?, opened?]
    simp only [hor]
    split_ifs
    · rfl
    · rfl
  · rfl
  · rfl

/-- A handle that is lost is no connection's. -/
theorem SqliteCall.opened?_of_leaks {c : SqliteCall θ} (h : c.Leaks) :
    ∃ t, c.opened? t = none ∧ ∃ connection, c.handle? t = some connection := by
  rcases c with ⟨t, path, err, connection⟩ | _ | _
  · exact ⟨t, if_neg fun hok => h.1 hok.2, connection, if_pos ⟨rfl, .inr h.2⟩⟩
  · exact h.elim
  · exact h.elim

theorem length_opened?_le (calls : List (SqliteCall θ)) (t : θ) :
    (calls.filterMap (·.opened? t)).length ≤ (calls.filterMap (·.handle? t)).length := by
  induction calls with
  | nil => exact Nat.le_refl 0
  | cons c calls ih =>
    rcases hopened : c.opened? t with _ | entry
    · rw [List.filterMap_cons_none hopened]
      exact Nat.le_trans ih ((List.sublist_cons_self c calls).filterMap _).length_le
    · rw [List.filterMap_cons_some hopened,
        List.filterMap_cons_some (SqliteCall.handle?_of_opened? hopened)]
      exact Nat.succ_le_succ ih

/-- The handles that the threads open are those of their connections, iff none is lost. -/
theorem filterMap_handle?_iff {calls : List (SqliteCall θ)} :
    (∀ t, calls.filterMap (·.handle? t) = (calls.filterMap (·.opened? t)).map Prod.snd) ↔
      ∀ c ∈ calls, ¬ c.Leaks := by
  constructor
  · intro h c hc hleaks
    obtain ⟨before, behind, rfl⟩ := List.append_of_mem hc
    obtain ⟨t, hnone, connection, hsome⟩ := SqliteCall.opened?_of_leaks hleaks
    -- The thread of the lost handle has opened one more than it has connections.
    have hlen := congrArg List.length (h t)
    rw [List.length_map, List.filterMap_append, List.filterMap_append, List.length_append,
      List.length_append, List.filterMap_cons_none (f := fun c : SqliteCall θ => c.opened? t) hnone,
      List.filterMap_cons_some (f := fun c : SqliteCall θ => c.handle? t) hsome,
      List.length_cons] at hlen
    have hbefore := length_opened?_le before t
    have hbehind := length_opened?_le behind t
    omega
  · intro h t
    rw [List.map_filterMap]
    exact List.filterMap_congr fun c hc => SqliteCall.handle?_of_not_leaks (h c hc) t

/-- No handle is lost. -/
def SqliteHost.NoLeaks (s : SqliteHost θ W) : Prop := ∀ c ∈ s.calls, ¬ c.Leaks

theorem SqliteInv.held_iff_noLeaks (hs : SqliteInv s) : s.HandlesHeld ↔ s.NoLeaks := by
  rw [SqliteHost.NoLeaks, ← filterMap_handle?_iff]
  refine forall_congr' fun t => ?_
  rw [SqliteHost.openHandles, SqliteHost.heldHandles, hs.entries_eq t]

omit [DecidableEq θ] in
theorem SqliteHost.noLeaks_called {w : W} {calls : List (SqliteCall θ)} :
    (s.called w calls).NoLeaks ↔ s.NoLeaks ∧ ∀ c ∈ calls, ¬ c.Leaks :=
  List.forall_mem_append

/-! ### One `prepare` -/

theorem getConnection_noLeaks (hs : SqliteInv s) {path : RocStr} :
    Ensures (getConnection sqlite t path) s
      (fun _ s' => s'.NoLeaks ↔ s.NoLeaks ∧
        ((s.entries t).lookup path.bytes = none → 0 ∉ path.bytes →
          let ((err, connection), _) := sqlite.openV2 s.world path.bytes
          (err ≠ sqliteOk → connection = 0)))
      (fun _ => 0 ∈ path.bytes) := by
  rw [Ensures, getConnection_eq (hs.free t)]
  rcases hlookup : (s.entries t).lookup path.bytes with _ | connection
  · by_cases hnul : 0 ∈ path.bytes
    · simp only [if_pos hnul]
      exact hnul
    · rcases sqlite.openV2 s.world path.bytes with ⟨⟨err, connection⟩, w⟩
      -- What is recorded of the opening leaks iff it fails with a handle.
      have hnew : ¬ SqliteCall.Leaks (.openV2 t path.bytes err connection) ↔
          (err ≠ sqliteOk → connection = 0) := by
        rw [SqliteCall.Leaks, not_and, not_not]
      by_cases herr : err = sqliteOk
      · subst herr
        simp only [if_neg hnul, if_pos]
        have hcalls : ((s.called w [.openV2 t path.bytes sqliteOk connection]).withConnection t
            (path.bytes, connection)).NoLeaks ↔ _ :=
          SqliteHost.noLeaks_called (w := w)
        rw [hcalls, List.forall_mem_singleton, hnew]
        simp [hnul]
      · simp only [if_neg hnul, if_neg herr]
        rw [SqliteHost.noLeaks_called, List.forall_mem_cons, List.forall_mem_singleton, hnew]
        simp [hnul, SqliteCall.Leaks]
  · simp

theorem prepare_noLeaks (hs : SqliteInv s) {dbPath query : RocStr} {room : Bool} :
    Ensures (prepare sqlite t dbPath query room) s
      (fun _ s' => s'.NoLeaks ↔ s.NoLeaks ∧
        PrepareCall.FailsWithNull sqlite ⟨t, dbPath, query, room⟩ s)
      (fun _ => 0 ∈ dbPath.bytes) := by
  have hconnect : Ensures (getConnection sqlite t dbPath) s _ _ := getConnection_noLeaks hs
  rcases hget : getConnection sqlite t dbPath s with e | ⟨err | connection, s₁⟩
  · have hthread : threadLocalPrepare sqlite t ⟨dbPath, query, []⟩ s = .error e := bind_error hget
    rw [Ensures, prepare, bind_error hthread]
    exact hconnect.of_error hget
  · have hthread : threadLocalPrepare sqlite t ⟨dbPath, query, []⟩ s =
        .ok ((.error err, ⟨dbPath, query, []⟩), s₁) := bind_ok hget
    rw [Ensures, prepare, bind_ok hthread]
    exact hconnect.of_ok hget
  · -- Nothing is opened after that.
    have hprepared (w : W) {err : Int32} {p : ℕ} :
        (s₁.called w [.prepareV2 t connection query.bytes err p]).NoLeaks ↔ s₁.NoLeaks := by
      rw [SqliteHost.noLeaks_called, List.forall_mem_singleton]
      exact and_iff_left not_false
    have hrefused (w : W) {err : Int32} {p : ℕ} :
        (s₁.called w [.prepareV2 t connection query.bytes err p, .errmsg t connection]).NoLeaks ↔
          s₁.NoLeaks := by
      rw [SqliteHost.noLeaks_called, List.forall_mem_cons, List.forall_mem_singleton]
      exact and_iff_left ⟨not_false, not_false⟩
    have hnone : (⟨dbPath, query, []⟩ : SqliteStatement θ).stmt.lookup t = none := rfl
    rcases hprepare : sqlite.prepareV2 s₁.world connection query.bytes
      (.ofNat query.bytes.length) with ⟨⟨err, p⟩, w⟩
    by_cases herr : err = sqliteOk
    · subst herr
      rw [Ensures, prepare, bind_ok (threadLocalPrepare_of_prepared hget hnone hprepare)]
      dsimp only
      split_ifs
      · exact (hprepared w).trans (hconnect.of_ok hget)
      · exact (hprepared w).trans (hconnect.of_ok hget)
    · obtain ⟨e, hthread⟩ := threadLocalPrepare_of_refused hget hnone hprepare herr
      rw [Ensures, prepare, bind_ok hthread]
      exact (hrefused w).trans (hconnect.of_ok hget)

/-! ### Any `prepare`s -/

/-- **The handles that are open are those that are held**, in every state that `prepare`s of any
threads reach, iff no opening fails with a handle. -/
theorem handlesHeld_iff (sqlite : Sqlite3 W) (w : W) (calls : List (PrepareCall θ)) :
    Along (PrepareCall.call sqlite) (PrepareCall.FailsWithNull sqlite) calls (.init w) ↔
      ∀ n answers s, run (PrepareCall.call sqlite) (calls.take n) (.init w) = .ok (answers, s) →
        s.HandlesHeld := by
  have hok : ∀ (c : PrepareCall θ) s b s', SqliteInv s →
      PrepareCall.call sqlite c s = .ok (b, s') → SqliteInv s' :=
    fun c s b s' hs h => ((prepare_ensures hs).of_ok h).1.inv
  have hinit : (.init w : SqliteHost θ W).HandlesHeld := by
    intro t
    rfl
  refine along_iff (H := fun _ s => s.HandlesHeld) hok
    (fun _ c s b s' hs hheld h => ?_) (fun c s e hs h => ?_) (SqliteInv.init w) hinit
  · -- A call keeps what is held exactly when it opens nothing that it drops.
    have hkeep : s'.NoLeaks ↔ s.NoLeaks ∧ c.FailsWithNull sqlite s := (prepare_noLeaks hs).of_ok h
    rw [(hok c s b s' hs h).held_iff_noLeaks, hkeep]
    exact and_iff_right (hs.held_iff_noLeaks.mp hheld)
  · -- A `prepare` that panics has not come to `sqlite3_open_v2`.
    have hnul : 0 ∈ c.dbPath.bytes := (prepare_noLeaks hs).of_error h
    exact fun _ h => absurd hnul h

end

/-- A database that cannot be opened, tried twice: SQLite has answered a handle each time, and the
thread holds none. -/
theorem not_handlesHeld_retry :
    let call : PrepareCall ℕ := ⟨0, .fromStr "/no/such/dir/x.db", .fromStr "SELECT x FROM t", true⟩
    ∃ answers s, run (PrepareCall.call refSqlite) [call, call] (.init .empty) = .ok (answers, s) ∧
      ¬ ∀ c, c ∈ s.openHandles 0 ↔ c ∈ s.heldHandles 0 := by
  intro call
  have hhandles : (run (PrepareCall.call refSqlite) [call, call] (.init .empty)).map
      (fun r => (r.2.openHandles 0, r.2.heldHandles 0)) = .ok ([1, 2], []) := by
    decide +kernel
  rcases hrun : run (PrepareCall.call refSqlite) [call, call] (.init .empty) with e | ⟨answers, s⟩
  · rw [hrun] at hhandles
    cases hhandles
  · rw [hrun] at hhandles
    obtain ⟨hopen, hheld⟩ := Prod.mk.inj (Except.ok.inj hhandles)
    refine ⟨answers, s, rfl, fun hset => ?_⟩
    have hmem : 1 ∈ s.openHandles 0 := by
      rw [hopen]
      exact List.mem_cons_self
    have hheld' := (hset 1).mp hmem
    rw [hheld] at hheld'
    exact absurd hheld' List.not_mem_nil

end BasicCli.Sqlite
