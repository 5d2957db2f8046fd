import BasicCli.Lookup.Basic
import BasicCli.Run.Ensures
import BasicCli.Sqlite.Statement

/-!
# The connections of a thread
-/

namespace BasicCli.Sqlite

open Lookup Run

variable {θ W : Type} {sqlite : Sqlite3 W} {s s' : SqliteHost θ W} {t : θ}

/-! ### States -/

/-- The paths and connections of the thread. -/
def SqliteHost.entries (s : SqliteHost θ W) (t : θ) : List (List UInt8 × ℕ) :=
  (s.connections t).value

/-- The state after SQLite has been called. -/
def SqliteHost.called (s : SqliteHost θ W) (world : W) (calls : List (SqliteCall θ)) :
    SqliteHost θ W :=
  { s with world, calls := s.calls ++ calls }

theorem SqliteHost.called_called {w w' : W} {calls calls' : List (SqliteCall θ)} :
    (s.called w calls).called w' calls' = s.called w' (calls ++ calls') := by
  rw [called, called, called, List.append_assoc]

/-- `p` has been prepared for the statement, by the thread and on its connection of the path. -/
def SqliteHost.PreparedOn (s : SqliteHost θ W) (t : θ) (stmt : SqliteStatement θ) (p : ℕ) : Prop :=
  ∃ connection, (stmt.dbPath.bytes, connection) ∈ s.entries t ∧
    .prepareV2 t connection stmt.query.bytes sqliteOk p ∈ s.calls

/-- Later, nothing that was there before has changed. -/
structure Extends (s s' : SqliteHost θ W) : Prop where
  entries : ∀ t, s.entries t <+: s'.entries t
  calls : s.calls <+: s'.calls

theorem Extends.refl (s : SqliteHost θ W) : Extends s s :=
  ⟨fun _ => List.prefix_rfl, List.prefix_rfl⟩

theorem Extends.trans {s₁ s₂ s₃ : SqliteHost θ W} (h₁₂ : Extends s₁ s₂) (h₂₃ : Extends s₂ s₃) :
    Extends s₁ s₃ :=
  ⟨fun t => (h₁₂.entries t).trans (h₂₃.entries t), h₁₂.calls.trans h₂₃.calls⟩

/-- A statement stays prepared on the connection that it was. -/
theorem SqliteHost.PreparedOn.mono {stmt : SqliteStatement θ} {p : ℕ} (h : s.PreparedOn t stmt p)
    (hss' : Extends s s') : s'.PreparedOn t stmt p := by
  obtain ⟨connection, hentry, hcall⟩ := h
  exact ⟨connection, (hss'.entries t).subset hentry, hss'.calls.subset hcall⟩

theorem Extends.called {w : W} {calls : List (SqliteCall θ)} : Extends s (s.called w calls) :=
  ⟨fun _ => List.prefix_rfl, List.prefix_append s.calls calls⟩

/-! ### What one call consults -/

/-- What a call of a thread that is about `path` may ask of SQLite: to open the path, and otherwise
to prepare on or tell the message of the connection that is then in `entries`; or to tell the
message of the connection whose opening has just failed. -/
def SqliteCall.About (t : θ) (path : List UInt8) (entries : List (List UInt8 × ℕ))
    (calls : List (SqliteCall θ)) : SqliteCall θ → Prop
  | .openV2 t' path' _ _ => t' = t ∧ path' = path
  | .prepareV2 t' connection _ _ _ => t' = t ∧ (path, connection) ∈ entries
  | .errmsg t' connection =>
    t' = t ∧ ((path, connection) ∈ entries ∨
      ∃ err, err ≠ sqliteOk ∧ .openV2 t path err connection ∈ calls)

/-- From `s` to `s'` the thread has asked SQLite about `path` only. -/
structure Consults (t : θ) (path : List UInt8) (s s' : SqliteHost θ W) : Prop
    extends Extends s s' where
  others : ∀ t', t' ≠ t → s'.connections t' = s.connections t'
  about : ∃ calls, s'.calls = s.calls ++ calls ∧ ∀ c ∈ calls, c.About t path (s'.entries t) calls

/-- A call stays about what it was, whatever else is opened and called. -/
theorem SqliteCall.About.mono {path : List UInt8} {entries entries' : List (List UInt8 × ℕ)}
    {calls calls' : List (SqliteCall θ)} {c : SqliteCall θ} (h : c.About t path entries calls)
    (hentries : entries ⊆ entries') (hcalls : calls ⊆ calls') : c.About t path entries' calls' := by
  rcases c with ⟨t', path', err, connection⟩ | ⟨t', connection, query, err, p⟩ | ⟨t', connection⟩
  · exact h
  · exact ⟨h.1, hentries h.2⟩
  · refine ⟨h.1, ?_⟩
    rcases h.2 with hentry | ⟨err, herr, hopen⟩
    · exact .inl (hentries hentry)
    · exact .inr ⟨err, herr, hcalls hopen⟩

theorem Consults.refl (t : θ) (path : List UInt8) (s : SqliteHost θ W) : Consults t path s s where
  toExtends := .refl s
  others _ _ := rfl
  about := ⟨[], (List.append_nil s.calls).symm, fun _ hc => by simp at hc⟩

theorem Consults.trans {path : List UInt8} {s₁ s₂ s₃ : SqliteHost θ W} (h₁₂ : Consults t path s₁ s₂)
    (h₂₃ : Consults t path s₂ s₃) : Consults t path s₁ s₃ where
  toExtends := h₁₂.toExtends.trans h₂₃.toExtends
  others t' ht := (h₂₃.others t' ht).trans (h₁₂.others t' ht)
  about := by
    obtain ⟨calls, heq, habout⟩ := h₁₂.about
    obtain ⟨calls', heq', habout'⟩ := h₂₃.about
    refine ⟨calls ++ calls', by rw [heq', heq, List.append_assoc], fun c hc => ?_⟩
    rcases List.mem_append.mp hc with hc | hc
    · exact (habout c hc).mono (h₂₃.entries t).subset (List.subset_append_left calls calls')
    · exact (habout' c hc).mono (List.Subset.refl _) (List.subset_append_right calls calls')

theorem Consults.called {path : List UInt8} {w : W} {calls : List (SqliteCall θ)}
    (h : ∀ c ∈ calls, c.About t path (s.entries t) calls) :
    Consults t path s (s.called w calls) where
  toExtends := .called
  others _ _ := rfl
  about := ⟨calls, rfl, h⟩

/-! ### Calls of SQLite -/

theorem ensures_call_bind {α β : Type} {f : W → β × W} {g : β → SqliteM θ W α}
    {Q : α → SqliteHost θ W → Prop} {E : Fault → Prop}
    (h : Ensures (g (f s.world).1) { s with world := (f s.world).2 } Q E) :
    Ensures (call f >>= g) s Q E := h

/-- `sqlite3_open_v2`, with the call that is written down. -/
theorem openV2_eq {path : List UInt8} :
    openV2 sqlite t path s =
      let ((err, connection), world) := sqlite.openV2 s.world path
      .ok ((err, connection), s.called world [.openV2 t path err connection]) := rfl

/-- `sqlite3_prepare_v2`, with the call that is written down. -/
theorem prepareV2_eq {connection : ℕ} {query : RocStr} {err : Int32} {stmt : ℕ} {w : W}
    (h : sqlite.prepareV2 s.world connection query.bytes (.ofNat query.bytes.length) =
      ((err, stmt), w)) :
    prepareV2 sqlite t connection query s =
      .ok ((err, stmt), s.called w [.prepareV2 t connection query.bytes err stmt]) := by
  have hcall : (call fun w => sqlite.prepareV2 w connection query.bytes
      (.ofNat query.bytes.length)) s = .ok ((err, stmt), { s with world := w }) := by
    rw [call, h]
  rw [prepareV2, bind_ok hcall]
  rfl

theorem errFromConn_eq {conn : ℕ} {code : Int32} :
    errFromConn sqlite t conn code s =
      .ok (errFromSqliteConn code (sqlite.errstr code) (sqlite.errmsg s.world conn),
        s.called s.world [.errmsg t conn]) := rfl

variable [DecidableEq θ]

/-! ### Another connection -/

/-- The state with another connection of the thread. -/
def SqliteHost.withConnection (s : SqliteHost θ W) (t : θ) (entry : List UInt8 × ℕ) :
    SqliteHost θ W :=
  { s with connections := Function.update s.connections t (.new (s.entries t ++ [entry])) }

theorem connections_withConnection {entry : List UInt8 × ℕ} :
    (s.withConnection t entry).connections =
      Function.update s.connections t (.new (s.entries t ++ [entry])) := rfl

/-- A connection is put behind those that the thread has. -/
theorem entries_withConnection {entry : List UInt8 × ℕ} :
    (s.withConnection t entry).entries t = s.entries t ++ [entry] := by
  rw [SqliteHost.entries, connections_withConnection, Function.update_self]
  rfl

theorem connections_withConnection_of_ne {entry : List UInt8 × ℕ} {t' : θ} (h : t' ≠ t) :
    (s.withConnection t entry).connections t' = s.connections t' := by
  rw [connections_withConnection, Function.update_of_ne h]

/-- The connections of the other threads stay. -/
theorem entries_withConnection_of_ne {entry : List UInt8 × ℕ} {t' : θ} (h : t' ≠ t) :
    (s.withConnection t entry).entries t' = s.entries t' := by
  rw [SqliteHost.entries, SqliteHost.entries, connections_withConnection_of_ne h]

theorem Extends.withConnection {entry : List UInt8 × ℕ} : Extends s (s.withConnection t entry) := by
  refine ⟨fun t' => ?_, List.prefix_rfl⟩
  by_cases ht : t' = t
  · subst ht
    rw [entries_withConnection]
    exact List.prefix_append _ _
  · exact (entries_withConnection_of_ne ht).symm ▸ List.prefix_rfl

/-- A connection is opened for the path, and for no other. -/
theorem Consults.withConnection {path : List UInt8} {w : W} {err : Int32} {connection : ℕ} :
    Consults t path s ((s.called w [.openV2 t path err connection]).withConnection t
      (path, connection)) where
  toExtends := Extends.called.trans .withConnection
  others _ ht := connections_withConnection_of_ne ht
  about := ⟨_, rfl, fun c hc => by
    rw [List.mem_singleton.mp hc]
    exact ⟨rfl, rfl⟩⟩

/-! ### `get_connection` -/

/-- The `borrow` of the store, which nothing else borrows. -/
theorem borrowConnections_eq (hfree : s.connections t = .new (s.entries t)) :
    borrowConnections t s =
      .ok (s.entries t,
        { s with connections := Function.update s.connections t ⟨s.entries t, 1, false⟩ }) := by
  have hborrow : (s.connections t).borrow = .ok ⟨s.entries t, 1, false⟩ := by
    rw [hfree]
    rfl
  rw [borrowConnections, bind_ok rfl, bind_lift_ok hborrow]
  rfl

/-- The cell is as it was before it was borrowed. -/
theorem releaseConnections_eq (hfree : s.connections t = .new (s.entries t)) :
    releaseConnections t
        { s with connections := Function.update s.connections t ⟨s.entries t, 1, false⟩ } =
      .ok ((), s) := by
  have hsame : Function.update s.connections t (.new (s.entries t)) = s.connections := by
    rw [← hfree, Function.update_eq_self]
  have hdrop : (⟨s.entries t, 1, false⟩ : RefCell _).dropRef = .new (s.entries t) := rfl
  rw [releaseConnections, modify_apply]
  dsimp only
  rw [Function.update_self, Function.update_idem, hdrop, hsame]

/-- The `borrow_mut` of the store, which nothing else borrows. -/
theorem pushConnection_eq {entry : List UInt8 × ℕ} (hfree : s.connections t = .new (s.entries t)) :
    pushConnection t entry s = .ok ((), s.withConnection t entry) := by
  have hborrow : (s.connections t).borrowMut = .ok ⟨s.entries t, 0, true⟩ := by
    rw [hfree]
    rfl
  rw [pushConnection, bind_ok rfl, bind_lift_ok hborrow]
  rfl

/-- **What `get_connection` does** when the connections are not borrowed. -/
theorem getConnection_eq {path : RocStr} (hfree : s.connections t = .new (s.entries t)) :
    getConnection sqlite t path s =
      match (s.entries t).lookup path.bytes with
      | some connection => .ok (.ok connection, s)
      | none =>
        if 0 ∈ path.bytes then .error .nulError
        else
          let ((err, connection), world) := sqlite.openV2 s.world path.bytes
          let open' := SqliteCall.openV2 t path.bytes err connection
          if err = sqliteOk then
            .ok (.ok connection,
              (s.called world [open']).withConnection t (path.bytes, connection))
          else
            .ok (.error (errFromSqliteConn err (sqlite.errstr err)
                (sqlite.errmsg world connection)),
              s.called world [open', .errmsg t connection]) := by
  rw [getConnection, bind_ok (borrowConnections_eq hfree), bind_ok (releaseConnections_eq hfree)]
  -- A stored connection is answered; else the path must have no NUL byte to be opened.
  rcases (s.entries t).lookup path.bytes with _ | connection
  · by_cases hnul : 0 ∈ path.bytes
    · have hnew : cStringNew path = .error .nulError := by
        rw [cStringNew, if_pos hnul]
      simp only [if_pos hnul]
      rw [bind_lift_error hnew]
    · have hnew : cStringNew path = .ok path.bytes := by
        rw [cStringNew, if_neg hnul]
      simp only [if_neg hnul]
      rw [bind_lift_ok hnew, bind_ok openV2_eq]
      dsimp only
      by_cases herr : (sqlite.openV2 s.world path.bytes).1.1 = sqliteOk
      · rw [if_pos herr, if_neg (not_not.mpr herr),
          bind_ok (pushConnection_eq (s := s.called _ _) hfree)]
        rfl
      · rw [if_neg herr, if_pos herr, bind_ok errFromConn_eq, SqliteHost.called_called]
        rfl
  · rfl

/-! ### The invariant -/

/-- The entry that a call adds: that of a connection which the thread has opened. -/
def SqliteCall.opened? (t : θ) : SqliteCall θ → Option (List UInt8 × ℕ)
  | .openV2 t' path err connection =>
    if t' = t ∧ err = sqliteOk then some (path, connection) else none
  | .prepareV2 .. | .errmsg .. => none

/-- What holds between two calls of a program. -/
structure SqliteInv (s : SqliteHost θ W) : Prop where
  /-- Nothing is borrowed. -/
  free : ∀ t, s.connections t = .new (s.entries t)
  /-- The connections are those that have been opened, in this order. -/
  entries_eq : ∀ t, s.entries t = s.calls.filterMap (·.opened? t)
  nodup : ∀ t, ((s.entries t).map Prod.fst).Nodup
  notMem : ∀ t, ∀ entry ∈ s.entries t, 0 ∉ entry.1
  /-- The statements of SQLite belong to the cached connections. -/
  prepared : ∀ stmt ∈ s.statements, ∀ t p, (t, p) ∈ stmt.stmt → s.PreparedOn t stmt p
  /-- The path of a statement can be opened. -/
  path : ∀ stmt ∈ s.statements, 0 ∉ stmt.dbPath.bytes

theorem SqliteInv.init (w : W) : SqliteInv (.init w : SqliteHost θ W) where
  free _ := rfl
  entries_eq _ := rfl
  nodup _ := List.nodup_nil
  notMem _ _ hentry := absurd hentry List.not_mem_nil
  prepared _ hstmt := absurd hstmt List.not_mem_nil
  path _ hstmt := absurd hstmt List.not_mem_nil

theorem SqliteInv.called (hs : SqliteInv s) {w : W} {calls : List (SqliteCall θ)}
    (hcalls : ∀ c ∈ calls, ∀ t, c.opened? t = none) : SqliteInv (s.called w calls) where
  free := hs.free
  entries_eq t := by
    have hnone : calls.filterMap (·.opened? t) = [] :=
      List.filterMap_eq_nil_iff.mpr fun c hc => hcalls c hc t
    have heq : (s.called w calls).calls = s.calls ++ calls := rfl
    rw [heq, List.filterMap_append, hnone, List.append_nil]
    exact hs.entries_eq t
  nodup := hs.nodup
  notMem := hs.notMem
  prepared stmt hstmt t p hp := (hs.prepared stmt hstmt t p hp).mono .called
  path := hs.path

/-- A connection that has been opened is added, as there is none of its path. -/
theorem SqliteInv.withConnection (hs : SqliteInv s) {w : W} {path : List UInt8} {connection : ℕ}
    (hlookup : (s.entries t).lookup path = none) (hnul : 0 ∉ path) :
    SqliteInv ((s.called w [.openV2 t path sqliteOk connection]).withConnection t
      (path, connection)) where
  free t' := by
    by_cases ht : t' = t
    · subst ht
      rw [entries_withConnection, connections_withConnection, Function.update_self]
    · rw [connections_withConnection_of_ne ht, entries_withConnection_of_ne ht]
      exact hs.free t'
  entries_eq t' := by
    -- The new call opens one connection, on this thread, and none on another.
    have hcalls : ((s.called w [.openV2 t path sqliteOk connection]).withConnection t
        (path, connection)).calls = s.calls ++ [.openV2 t path sqliteOk connection] := rfl
    rw [hcalls, List.filterMap_append]
    by_cases ht : t' = t
    · subst ht
      have hopen : [SqliteCall.openV2 t' path sqliteOk connection].filterMap (·.opened? t') =
          [(path, connection)] := by
        simp [SqliteCall.opened?]
      rw [entries_withConnection, hopen, ← hs.entries_eq t']
      rfl
    · have hopen :
          [SqliteCall.openV2 t path sqliteOk connection].filterMap (·.opened? t') = [] := by
        simp [SqliteCall.opened?, Ne.symm ht]
      rw [entries_withConnection_of_ne ht, hopen, List.append_nil, ← hs.entries_eq t']
      rfl
  nodup t' := by
    by_cases ht : t' = t
    · subst ht
      rw [entries_withConnection]
      exact nodup_keys_append (hs.nodup t') hlookup
    · rw [entries_withConnection_of_ne ht]
      exact hs.nodup t'
  notMem t' entry hentry := by
    by_cases ht : t' = t
    · subst ht
      rw [entries_withConnection] at hentry
      rcases List.mem_append.mp hentry with hold | hnew
      · exact hs.notMem t' entry hold
      · rw [List.mem_singleton.mp hnew]
        exact hnul
    · rw [entries_withConnection_of_ne ht] at hentry
      exact hs.notMem t' entry hentry
  prepared stmt hstmt t' p hp :=
    (hs.prepared stmt hstmt t' p hp).mono (Extends.called.trans .withConnection)
  path := hs.path

/-! ### What the functions ensure -/

/-- `getConnection` in a state between two calls. -/
theorem getConnection_ensures (hs : SqliteInv s) {path : RocStr} :
    Ensures (getConnection sqlite t path) s
      (fun answer s' => SqliteInv s' ∧ Consults t path.bytes s s' ∧ s'.statements = s.statements ∧
        0 ∉ path.bytes ∧
        ∀ connection, answer = .ok connection → (path.bytes, connection) ∈ s'.entries t)
      (fun e => e = .nulError ∧ 0 ∈ path.bytes) := by
  rw [Ensures, getConnection_eq (hs.free t)]
  -- The four ways: a stored connection, a NUL byte, one that is opened, a refusal.
  rcases hlookup : (s.entries t).lookup path.bytes with _ | connection
  · by_cases hnul : 0 ∈ path.bytes
    · simp only [if_pos hnul]
      exact ⟨trivial, hnul⟩
    · rcases sqlite.openV2 s.world path.bytes with ⟨⟨err, connection⟩, w⟩
      by_cases herr : err = sqliteOk
      · subst herr
        simp only [if_neg hnul, if_pos]
        refine ⟨hs.withConnection hlookup hnul, .withConnection, rfl, hnul, fun c hc => ?_⟩
        cases hc
        rw [entries_withConnection]
        exact List.mem_append_right _ List.mem_cons_self
      · simp only [if_neg hnul, if_neg herr]
        refine ⟨hs.called ?_, .called ?_, rfl, hnul, fun c hc => by simp at hc⟩
        · intro c hc t'
          rcases List.mem_cons.mp hc with rfl | hc
          · rw [SqliteCall.opened?, if_neg fun h => herr h.2]
          · rw [List.mem_singleton.mp hc]
            rfl
        · intro c hc
          rcases List.mem_cons.mp hc with rfl | hc
          · exact ⟨rfl, rfl⟩
          · rw [List.mem_singleton.mp hc]
            exact ⟨rfl, .inr ⟨err, herr, List.mem_cons_self⟩⟩
  · have hmem := mem_of_lookup hlookup
    refine ⟨hs, .refl t _ s, rfl, hs.notMem t _ hmem, fun c hc => ?_⟩
    cases hc
    exact hmem

/-- A path that has been opened is not opened again. -/
theorem getConnection_of_mem (sqlite : Sqlite3 W) (hs : SqliteInv s) {path : RocStr}
    {connection : ℕ} (h : (path.bytes, connection) ∈ s.entries t) :
    ∃ connection', (path.bytes, connection') ∈ s.entries t ∧
      getConnection sqlite t path s = .ok (.ok connection', s) := by
  obtain ⟨connection', hlookup⟩ := exists_lookup_of_mem h
  refine ⟨connection', mem_of_lookup hlookup, ?_⟩
  rw [getConnection_eq (hs.free t), hlookup]

/-- The message of an error is that of the connection of the path. -/
theorem rocErrFromErrcode_ensures (hs : SqliteInv s) {stmt : SqliteStatement θ} {code : Int32}
    {connection : ℕ} (h : (stmt.dbPath.bytes, connection) ∈ s.entries t) :
    Ensures (rocErrFromErrcode sqlite t stmt code) s
      (fun _ s' => SqliteInv s' ∧ Consults t stmt.dbPath.bytes s s' ∧ s'.statements = s.statements)
      (fun _ => False) := by
  obtain ⟨connection', hentry, hget⟩ := getConnection_of_mem sqlite hs h
  rw [Ensures, rocErrFromErrcode, bind_ok hget]
  refine ⟨hs.called ?_, .called ?_, rfl⟩
  · intro c hc t'
    rw [List.mem_singleton.mp hc]
    rfl
  · intro c hc
    rw [List.mem_singleton.mp hc]
    exact ⟨rfl, .inl hentry⟩

end BasicCli.Sqlite
