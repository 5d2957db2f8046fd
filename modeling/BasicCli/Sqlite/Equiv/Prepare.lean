import BasicCli.Sqlite.Equiv.Connections

/-!
# Preparing statements
-/

namespace BasicCli.Sqlite

open Lookup Run

variable {θ W : Type} {sqlite : Sqlite3 W} {s s' : SqliteHost θ W} {t : θ}

/-! ### Statements -/

/-- Later, a statement is what it was, and threads may have prepared it that had not. -/
structure SqliteStatement.Extends (stmt stmt' : SqliteStatement θ) : Prop where
  dbPath : stmt'.dbPath = stmt.dbPath
  query : stmt'.query = stmt.query
  stmt : stmt.stmt <+: stmt'.stmt

theorem SqliteStatement.Extends.refl (stmt : SqliteStatement θ) : stmt.Extends stmt :=
  ⟨rfl, rfl, List.prefix_rfl⟩

/-- Another preparation of a statement leaves the ones before. -/
theorem SqliteHost.PreparedOn.of_extends {stmt stmt' : SqliteStatement θ} {p : ℕ}
    (h : s.PreparedOn t stmt p) (hstmt : stmt.Extends stmt') : s.PreparedOn t stmt' p := by
  rw [SqliteHost.PreparedOn, hstmt.dbPath, hstmt.query]
  exact h

variable [DecidableEq θ]

/-- What holds of a statement in the heap. -/
def SqliteHost.StatementOk (s : SqliteHost θ W) (stmt : SqliteStatement θ) : Prop :=
  (∀ t p, (t, p) ∈ stmt.stmt → s.PreparedOn t stmt p) ∧ 0 ∉ stmt.dbPath.bytes

theorem SqliteInv.statementOk (hs : SqliteInv s) {box : ℕ} {stmt : SqliteStatement θ}
    (h : s.statements[box]? = some stmt) : s.StatementOk stmt :=
  ⟨hs.prepared stmt (List.mem_of_getElem? h), hs.path stmt (List.mem_of_getElem? h)⟩

theorem SqliteInv.withStatements (hs : SqliteInv s) {statements : List (SqliteStatement θ)}
    (h : ∀ stmt ∈ statements, s.StatementOk stmt) : SqliteInv { s with statements } where
  free := hs.free
  entries_eq := hs.entries_eq
  nodup := hs.nodup
  notMem := hs.notMem
  prepared stmt hstmt := (h stmt hstmt).1
  path stmt hstmt := (h stmt hstmt).2

/-! ### `thread_local_prepare` -/

/-- What the thread has prepared is found again, and nothing is asked of SQLite. -/
theorem threadLocalPrepare_of_lookup (hs : SqliteInv s) {stmt : SqliteStatement θ} {p : ℕ}
    (h : stmt.stmt.lookup t = some p) (hp : s.PreparedOn t stmt p) :
    threadLocalPrepare sqlite t stmt s = .ok ((.ok p, stmt), s) := by
  obtain ⟨connection, hentry, -⟩ := hp
  obtain ⟨connection', -, hget⟩ := getConnection_of_mem sqlite hs hentry
  rw [threadLocalPrepare, bind_ok hget]
  simp only [h]
  rfl

/-- What `thread_local_prepare` does when it returns. -/
structure ThreadPrepared (t : θ) (stmt : SqliteStatement θ) (s : SqliteHost θ W)
    (r : Except SqliteError ℕ × SqliteStatement θ) (s' : SqliteHost θ W) : Prop where
  inv : SqliteInv s'
  consults : Consults t stmt.dbPath.bytes s s'
  statements : s'.statements = s.statements
  ext : stmt.Extends r.2
  prepared : ∀ t p, (t, p) ∈ r.2.stmt → s'.PreparedOn t r.2 p
  path : 0 ∉ stmt.dbPath.bytes
  answer : ∀ p, r.1 = .ok p → r.2.stmt.lookup t = some p

/-! With a connection, the statement is prepared on it, unless the thread has done so. -/

section

variable {stmt : SqliteStatement θ} {s₁ : SqliteHost θ W} {connection p : ℕ} {w : W}

theorem threadLocalPrepare_of_prepared
    (hget : getConnection sqlite t stmt.dbPath s = .ok (.ok connection, s₁))
    (hlookup : stmt.stmt.lookup t = none)
    (hprepare : sqlite.prepareV2 s₁.world connection stmt.query.bytes
      (.ofNat stmt.query.bytes.length) = ((sqliteOk, p), w)) :
    threadLocalPrepare sqlite t stmt s =
      .ok ((.ok p, { stmt with stmt := stmt.stmt ++ [(t, p)] }),
        s₁.called w [.prepareV2 t connection stmt.query.bytes sqliteOk p]) := by
  rw [threadLocalPrepare, bind_ok hget]
  simp only [hlookup]
  rw [bind_ok (prepareV2_eq hprepare)]
  rfl

theorem threadLocalPrepare_of_refused {err : Int32}
    (hget : getConnection sqlite t stmt.dbPath s = .ok (.ok connection, s₁))
    (hlookup : stmt.stmt.lookup t = none)
    (hprepare : sqlite.prepareV2 s₁.world connection stmt.query.bytes
      (.ofNat stmt.query.bytes.length) = ((err, p), w)) (herr : err ≠ sqliteOk) :
    ∃ e, threadLocalPrepare sqlite t stmt s = .ok ((.error e, stmt),
      s₁.called w [.prepareV2 t connection stmt.query.bytes err p, .errmsg t connection]) := by
  rw [threadLocalPrepare, bind_ok hget]
  simp only [hlookup]
  rw [bind_ok (prepareV2_eq hprepare)]
  dsimp only
  rw [if_pos herr, bind_ok errFromConn_eq, SqliteHost.called_called]
  exact ⟨_, rfl⟩

variable (hs₁ : SqliteInv s₁) (hconsults : Consults t stmt.dbPath.bytes s s₁)
  (hstatements : s₁.statements = s.statements) (hpath : 0 ∉ stmt.dbPath.bytes)
  (hentry : (stmt.dbPath.bytes, connection) ∈ s₁.entries t)
  (hstmt : ∀ t' p, (t', p) ∈ stmt.stmt → s₁.PreparedOn t' stmt p)

include hs₁ hconsults hstatements hpath hentry hstmt

theorem ThreadPrepared.of_prepared (hlookup : stmt.stmt.lookup t = none) :
    ThreadPrepared t stmt s (.ok p, { stmt with stmt := stmt.stmt ++ [(t, p)] })
      (s₁.called w [.prepareV2 t connection stmt.query.bytes sqliteOk p]) := by
  have hextends : stmt.Extends { stmt with stmt := stmt.stmt ++ [(t, p)] } :=
    ⟨rfl, rfl, List.prefix_append _ _⟩
  refine ⟨hs₁.called ?_, hconsults.trans (.called ?_), hstatements, hextends, ?_, hpath, ?_⟩
  · intro c hc t'
    rw [List.mem_singleton.mp hc]
    rfl
  · intro c hc
    rw [List.mem_singleton.mp hc]
    exact ⟨rfl, hentry⟩
  · intro t' p' hp'
    rcases List.mem_append.mp hp' with hold | hnew
    · exact ((hstmt t' p' hold).mono .called).of_extends hextends
    · cases List.mem_singleton.mp hnew
      exact ⟨connection, hentry, List.mem_append_right _ List.mem_cons_self⟩
  · intro p' hp'
    cases hp'
    exact lookup_append_singleton hlookup

theorem ThreadPrepared.of_refused {err : Int32} {e : SqliteError} :
    ThreadPrepared t stmt s (.error e, stmt)
      (s₁.called w [.prepareV2 t connection stmt.query.bytes err p, .errmsg t connection]) := by
  refine ⟨hs₁.called ?_, hconsults.trans (.called ?_), hstatements, .refl stmt, ?_, hpath,
    fun p hp => by simp at hp⟩
  · intro c hc t'
    rcases List.mem_cons.mp hc with rfl | hc
    · rfl
    · rw [List.mem_singleton.mp hc]
      rfl
  · intro c hc
    rcases List.mem_cons.mp hc with rfl | hc
    · exact ⟨rfl, hentry⟩
    · rw [List.mem_singleton.mp hc]
      exact ⟨rfl, .inl hentry⟩
  · intro t' p' hp'
    exact (hstmt t' p' hp').mono .called

end

theorem threadLocalPrepare_ensures (hs : SqliteInv s) {stmt : SqliteStatement θ}
    (hstmt : ∀ t p, (t, p) ∈ stmt.stmt → s.PreparedOn t stmt p) :
    Ensures (threadLocalPrepare sqlite t stmt) s (fun r s' => ThreadPrepared t stmt s r s')
      (fun e => e = .nulError ∧ 0 ∈ stmt.dbPath.bytes) := by
  have hconnect : Ensures (getConnection sqlite t stmt.dbPath) s _ _ := getConnection_ensures hs
  rcases hget : getConnection sqlite t stmt.dbPath s with e | ⟨err | connection, s₁⟩
  · rw [Ensures, threadLocalPrepare, bind_error hget]
    exact hconnect.of_error hget
  · obtain ⟨hs₁, hconsults, hstatements, hpath, -⟩ := hconnect.of_ok hget
    rw [Ensures, threadLocalPrepare, bind_ok hget]
    exact ⟨hs₁, hconsults, hstatements, .refl stmt,
      fun t' p hp => (hstmt t' p hp).mono hconsults.toExtends, hpath, fun p hp => by simp at hp⟩
  · obtain ⟨hs₁, hconsults, hstatements, hpath, hanswer⟩ := hconnect.of_ok hget
    have hentry := hanswer connection rfl
    have hstmt₁ : ∀ t' p, (t', p) ∈ stmt.stmt → s₁.PreparedOn t' stmt p :=
      fun t' p hp => (hstmt t' p hp).mono hconsults.toExtends
    -- Whether this thread has prepared the statement before.
    rcases hlookup : stmt.stmt.lookup t with _ | p
    · rcases hprepare : sqlite.prepareV2 s₁.world connection stmt.query.bytes
        (.ofNat stmt.query.bytes.length) with ⟨⟨err, p⟩, w⟩
      by_cases herr : err = sqliteOk
      · subst herr
        rw [Ensures, threadLocalPrepare_of_prepared hget hlookup hprepare]
        exact .of_prepared hs₁ hconsults hstatements hpath hentry hstmt₁ hlookup
      · obtain ⟨e, heq⟩ := threadLocalPrepare_of_refused hget hlookup hprepare herr
        rw [Ensures, heq]
        exact .of_refused hs₁ hconsults hstatements hpath hentry hstmt₁
    · -- The connection is there already, so nothing has happened.
      rw [Ensures, threadLocalPrepare_of_lookup hs hlookup (hstmt t p (mem_of_lookup hlookup))]
      refine ⟨hs, .refl t _ s, rfl, .refl stmt, hstmt, hpath, fun p' hp' => ?_⟩
      cases hp'
      exact hlookup

/-! ### The beginning of a call -/

theorem set_of_getElem? {α : Type} {l : List α} {i : ℕ} {a : α} (h : l[i]? = some a) :
    l.set i a = l := by
  obtain ⟨hlt, rfl⟩ := List.getElem?_eq_some_iff.mp h
  exact List.set_getElem_self hlt

/-- Nothing happens if the thread has used the statement before. -/
theorem localStmt_of_lookup (hs : SqliteInv s) {box : ℕ} {stmt : SqliteStatement θ} {p : ℕ}
    (hbox : s.statements[box]? = some stmt) (h : stmt.stmt.lookup t = some p) :
    localStmt sqlite t box s = .ok ((stmt, p), s) := by
  have hp := (hs.statementOk hbox).1 t p (mem_of_lookup h)
  have hget : (get : SqliteM θ W (SqliteHost θ W)) s = .ok (s, s) := rfl
  rw [localStmt, bind_ok hget, hbox]
  dsimp only
  rw [bind_ok (threadLocalPrepare_of_lookup hs h hp), bind_ok modify_apply]
  dsimp only
  rw [set_of_getElem? hbox]
  rfl

/-- The call has begun: it has the statement of the box, `stmt` as it was before and `stmt'` now,
and what the thread has prepared for it. -/
structure Begun (t : θ) (box : ℕ) (s : SqliteHost θ W) (stmt stmt' : SqliteStatement θ) (p : ℕ)
    (s' : SqliteHost θ W) : Prop where
  inv : SqliteInv s'
  lookup : stmt'.stmt.lookup t = some p
  found : s.statements[box]? = some stmt
  ext : stmt.Extends stmt'
  statements : s'.statements = s.statements.set box stmt'
  consults : Consults t stmt.dbPath.bytes s s'
  /-- Nothing has happened if the thread has used the statement before. -/
  same : ∀ p', stmt.stmt.lookup t = some p' → stmt' = stmt ∧ p = p' ∧ s' = s

theorem Begun.box_eq {box p : ℕ} {stmt stmt' : SqliteStatement θ}
    (h : Begun t box s stmt stmt' p s') :
    s'.statements[box]? = some stmt' := by
  obtain ⟨hlt, -⟩ := List.getElem?_eq_some_iff.mp h.found
  rw [h.statements, List.getElem?_set_self hlt]

/-- **How a call begins**: it has the statement of the box and what the thread has prepared for it;
or the thread had not used the statement and now cannot. -/
theorem localStmt_ensures (hs : SqliteInv s) {box : ℕ} :
    Ensures (localStmt sqlite t box) s (fun r s' => ∃ stmt, Begun t box s stmt r.1 r.2 s')
      (fun e => e = .undefined ∧ s.statements[box]? = none ∨ e = .expect ∧ ∃ stmt,
        s.statements[box]? = some stmt ∧ stmt.stmt.lookup t = none) := by
  rcases hbox : s.statements[box]? with _ | stmt
  · rw [localStmt]
    refine ensures_get_bind ?_
    rw [hbox]
    exact ensures_throw (.inl ⟨rfl, rfl⟩)
  have hstmt := hs.statementOk hbox
  rcases hlookup : stmt.stmt.lookup t with _ | p
  · rw [localStmt]
    refine ensures_get_bind ?_
    rw [hbox]
    refine ensures_bind ((threadLocalPrepare_ensures hs hstmt.1).mono (fun _ _ h => h) ?_) ?_
    · rintro e ⟨-, hnul⟩
      exact absurd hnul hstmt.2
    rintro ⟨err | p, stmt'⟩ s₁ hprepared
    · exact ensures_modify_bind (ensures_throw (.inr ⟨rfl, stmt, rfl, hlookup⟩))
    · -- The box keeps the statement of this thread from now on.
      have hok : ∀ stmt'' ∈ s₁.statements.set box stmt', s₁.StatementOk stmt'' := by
        intro stmt'' hmem
        rcases List.mem_or_eq_of_mem_set hmem with hold | rfl
        · exact ⟨hprepared.inv.prepared stmt'' hold, hprepared.inv.path stmt'' hold⟩
        · rw [SqliteHost.StatementOk, hprepared.ext.dbPath]
          exact ⟨hprepared.prepared, hstmt.2⟩
      have hconsults := hprepared.consults
      refine ensures_modify_bind (ensures_pure ⟨stmt, hprepared.inv.withStatements hok,
        hprepared.answer p rfl, hbox, hprepared.ext, ?_, ?_, ?_⟩)
      · rw [hprepared.statements]
      · exact ⟨⟨hconsults.entries, hconsults.calls⟩, hconsults.others, hconsults.about⟩
      · intro p' hp'
        rw [hlookup] at hp'
        cases hp'
  · rw [Ensures, localStmt_of_lookup hs hbox hlookup]
    refine ⟨stmt, hs, hlookup, hbox, .refl stmt, (set_of_getElem? hbox).symm, .refl t _ s, ?_⟩
    intro p' hp'
    rw [hlookup] at hp'
    cases hp'
    exact ⟨rfl, rfl, rfl⟩

end BasicCli.Sqlite
