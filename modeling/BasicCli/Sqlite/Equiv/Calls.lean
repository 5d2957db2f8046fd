import BasicCli.Sqlite.Equiv.Prepare

/-!
# The calls of a program

* `act_ensures`: what every call of every thread does to the connections, to the statements and to
  what has been asked of SQLite.
-/

namespace BasicCli.Sqlite

open Lookup Run

variable {θ W : Type} {sqlite : Sqlite3 W} {s s' : SqliteHost θ W} {t : θ}

/-- The path of the database that a call is about. -/
def SqliteAction.path? (s : SqliteHost θ W) : SqliteAction → Option (List UInt8)
  | .prepare dbPath _ _ => some dbPath.bytes
  | .bind box _ | .columns box | .columnValue box _ | .step box | .reset box =>
    s.statements[box]?.map fun stmt => stmt.dbPath.bytes

variable [DecidableEq θ]

/-- What a call of the thread can do to the statements. -/
inductive StatementsStep (t : θ) (s s' : SqliteHost θ W) : Prop
  | same (h : s'.statements = s.statements)
  | prepared (stmt : SqliteStatement θ) (p : ℕ) (hlookup : stmt.stmt.lookup t = some p)
      (h : s'.statements = s.statements ++ [stmt])
  | firstUse (box : ℕ) (stmt stmt' : SqliteStatement θ) (hbox : s.statements[box]? = some stmt)
      (hlookup : stmt.stmt.lookup t = none) (hextends : stmt.Extends stmt')
      (h : s'.statements = s.statements.set box stmt')

/-- What a call does when it returns. -/
structure CallMeets (t : θ) (path? : Option (List UInt8)) (s s' : SqliteHost θ W) : Prop where
  inv : SqliteInv s'
  consults : ∃ path, path? = some path ∧ Consults t path s s'
  statements : StatementsStep t s s'

/-- How a call fails: nothing is borrowed twice, and the `expect` fires only for a thread that has
not used the statement. -/
def FaultMeets (t : θ) (s : SqliteHost θ W) (e : Fault) : Prop :=
  e ≠ .alreadyBorrowed ∧ (e = .expect → ∃ stmt ∈ s.statements, stmt.stmt.lookup t = none)

/-- What the rest of a call does, after it has its statement. -/
structure BodyMeets (t : θ) (stmt : SqliteStatement θ) (s s' : SqliteHost θ W) : Prop where
  inv : SqliteInv s'
  consults : Consults t stmt.dbPath.bytes s s'
  statements : s'.statements = s.statements

theorem BodyMeets.refl (hs : SqliteInv s) (stmt : SqliteStatement θ) : BodyMeets t stmt s s :=
  ⟨hs, .refl t _ s, rfl⟩

theorem BodyMeets.trans {stmt : SqliteStatement θ} {s₁ s₂ s₃ : SqliteHost θ W}
    (h₁₂ : BodyMeets t stmt s₁ s₂) (h₂₃ : BodyMeets t stmt s₂ s₃) : BodyMeets t stmt s₁ s₃ :=
  ⟨h₂₃.inv, h₁₂.consults.trans h₂₃.consults, h₂₃.statements.trans h₁₂.statements⟩

/-- SQLite changes its state. -/
theorem BodyMeets.world (hs : SqliteInv s) (stmt : SqliteStatement θ) (w : W) :
    BodyMeets t stmt s { s with world := w } where
  inv := ⟨hs.free, hs.entries_eq, hs.nodup, hs.notMem, hs.prepared, hs.path⟩
  consults :=
    ⟨⟨fun _ => List.prefix_rfl, List.prefix_rfl⟩, fun _ _ => rfl, [], (List.append_nil _).symm,
      fun _ hc => by simp at hc⟩
  statements := rfl

/-- The faults of the rest of a call. -/
def BodyFault (e : Fault) : Prop := e ≠ .alreadyBorrowed ∧ e ≠ .expect

/-- Every function but `prepare` is the beginning of a call and a rest. -/
theorem localStmt_bind_ensures {α : Type} {f : SqliteStatement θ × ℕ → SqliteM θ W α}
    (hs : SqliteInv s) {box : ℕ}
    (hf : ∀ stmt p s₁, SqliteInv s₁ → s₁.StatementOk stmt → stmt.stmt.lookup t = some p →
      Ensures (f (stmt, p)) s₁ (fun _ s' => BodyMeets t stmt s₁ s') BodyFault) :
    Ensures (localStmt sqlite t box >>= f) s
      (fun _ s' => CallMeets t (s.statements[box]?.map fun stmt => stmt.dbPath.bytes) s s')
      (FaultMeets t s) := by
  refine ensures_bind ((localStmt_ensures hs).mono (fun _ _ h => h) ?_) ?_
  · rintro e (⟨rfl, -⟩ | ⟨rfl, stmt, hbox, hlookup⟩)
    · exact ⟨by simp, by simp⟩
    · exact ⟨by simp, fun _ => ⟨stmt, List.mem_of_getElem? hbox, hlookup⟩⟩
  rintro ⟨stmt', p⟩ s₁ ⟨stmt, hbegun⟩
  refine (hf stmt' p s₁ hbegun.inv (hbegun.inv.statementOk hbegun.box_eq) hbegun.lookup).mono ?_ ?_
  · intro a s' hbody
    have hpath := hbody.consults
    rw [hbegun.ext.dbPath] at hpath
    refine ⟨hbody.inv, ⟨stmt.dbPath.bytes, ?_, hbegun.consults.trans hpath⟩, ?_⟩
    · rw [hbegun.found]
      rfl
    · -- A first use puts the new statement into the box; any other leaves the box alone.
      rcases hlookup : stmt.stmt.lookup t with _ | p'
      · exact .firstUse box stmt stmt' hbegun.found hlookup hbegun.ext
          (hbody.statements.trans hbegun.statements)
      · obtain ⟨-, -, rfl⟩ := hbegun.same p' hlookup
        exact .same hbody.statements
  · intro e he
    exact ⟨he.1, fun h => absurd h he.2⟩

/-! ### The functions -/

/-- A call that ends with the error of a code. -/
theorem error_ensures (hs : SqliteInv s) {stmt : SqliteStatement θ} (hstmt : s.StatementOk stmt)
    {p : ℕ} (h : stmt.stmt.lookup t = some p) {code : Int32} {α : Type} :
    Ensures (rocErrFromErrcode sqlite t stmt code >>= fun e =>
        Pure.pure (.error e : Except SqliteError α))
      s (fun _ s' => BodyMeets t stmt s s') (fun _ => False) := by
  obtain ⟨connection, hentry, -⟩ := hstmt.1 t p (mem_of_lookup h)
  refine ensures_bind (rocErrFromErrcode_ensures hs hentry) ?_
  rintro e s' ⟨hs', hconsults, hstatements⟩
  exact ensures_pure ⟨hs', hconsults, hstatements⟩

/-- A C string is the bytes of the text, none of which is NUL. -/
theorem cStringNew_ok {s : RocStr} {name : List UInt8} (h : cStringNew s = .ok name) :
    0 ∉ s.bytes ∧ s.bytes = name := by
  rw [cStringNew] at h
  split_ifs at h with hnul
  cases h
  exact ⟨hnul, rfl⟩

theorem cStringNew_fault {name : RocStr} (e : Fault) (h : cStringNew name = .error e) :
    e = .nulError := by
  rw [cStringNew] at h
  split_ifs at h
  cases h
  rfl

/-- **The bindings**: whatever SQLite answers, the loop meets what a call has to, or a NUL byte in a
name. On the list. -/
theorem bindLoop_ensures (hs : SqliteInv s) {stmt : SqliteStatement θ} (hstmt : s.StatementOk stmt)
    {p : ℕ} (h : stmt.stmt.lookup t = some p) {bindings : List SqliteBindings} :
    Ensures (bindLoop sqlite t stmt p bindings) s (fun _ s' => BodyMeets t stmt s s')
      (· = .nulError) := by
  induction bindings generalizing s with
  | nil => exact ensures_pure (.refl hs stmt)
  | cons binding bindings ih =>
    rw [bindLoop]
    refine ensures_lift_bind (fun name _ => ?_) cStringNew_fault
    refine ensures_get_bind ?_
    dsimp only
    split_ifs
    · exact ensures_pure (.refl hs stmt)
    · refine ensures_call_bind ?_
      have hworld := BodyMeets.world (t := t) hs stmt
        (bindValue sqlite s.world p (sqlite.bindParameterIndex s.world p name) binding.value).2
      have hstmt' := hstmt
      split_ifs
      · exact (error_ensures hworld.inv hstmt' h).mono (fun _ _ h' => hworld.trans h')
          (fun _ h => h.elim)
      · exact (ih hworld.inv hstmt').mono (fun _ _ h' => hworld.trans h') fun _ h => h

/-- What `bind` does after it has its statement: only a name can make it panic. -/
theorem bindRest_ensures (hs : SqliteInv s) {stmt : SqliteStatement θ} (hstmt : s.StatementOk stmt)
    {p : ℕ} (h : stmt.stmt.lookup t = some p) {bindings : List SqliteBindings} :
    Ensures (call (fun w => sqlite.clearBindings w p) >>= fun err =>
        if err ≠ sqliteOk then do
          let e ← rocErrFromErrcode sqlite t stmt err
          return .error e
        else bindLoop sqlite t stmt p bindings) s
      (fun _ s' => BodyMeets t stmt s s') (· = .nulError) := by
  refine ensures_call_bind ?_
  have hworld := BodyMeets.world (t := t) hs stmt (sqlite.clearBindings s.world p).2
  have hstmt' := hstmt
  split_ifs
  · exact (error_ensures hworld.inv hstmt' h).mono (fun _ _ h' => hworld.trans h')
      (fun _ h => h.elim)
  · exact (bindLoop_ensures hworld.inv hstmt' h).mono (fun _ _ h' => hworld.trans h') fun _ h => h

/-- **`bind`** meets what a call has to. -/
theorem bind_ensures (hs : SqliteInv s) {box : ℕ} {bindings : List SqliteBindings} :
    Ensures (bind sqlite t box bindings) s
      (fun _ s' => CallMeets t ((SqliteAction.bind box bindings).path? s) s s')
      (FaultMeets t s) := by
  rw [bind]
  refine localStmt_bind_ensures hs fun stmt p s₁ hs₁ hstmt h => ?_
  dsimp only
  split_ifs
  · exact ensures_throw ⟨by simp, by simp⟩
  · refine (bindRest_ensures hs₁ hstmt h).mono (fun _ _ h' => h') ?_
    rintro e rfl
    exact ⟨by simp, by simp⟩

theorem columnNames_fault {w : W} {p : ℕ} (e : Fault) (h : columnNames sqlite w p = .error e) :
    BodyFault e := by
  obtain ⟨i, -, hi⟩ := error_of_mapM h
  split at hi
  · cases hi
  · cases hi
    exact ⟨by simp, by simp⟩

/-- **`columns`** meets what a call has to. -/
theorem columns_ensures (hs : SqliteInv s) {box : ℕ} :
    Ensures (columns sqlite t box) s
      (fun _ s' => CallMeets t ((SqliteAction.columns box).path? s) s s') (FaultMeets t s) := by
  rw [columns]
  refine localStmt_bind_ensures hs fun stmt p s₁ hs₁ hstmt h => ?_
  refine ensures_get_bind (ensures_lift_bind (fun names _ => ?_) columnNames_fault)
  exact ensures_pure (.refl hs₁ stmt)

theorem fromRawParts_fault {data : CPtr} {len : UInt64} (e : Fault)
    (h : fromRawParts data len = .error e) : BodyFault e := by
  rw [fromRawParts] at h
  split_ifs at h
  all_goals
    cases h
    exact ⟨by simp, by simp⟩

theorem fromRawParts_bind_fault {data : CPtr} {len : UInt64} {f : Slice → SqliteValue} (e : Fault)
    (h : ((fromRawParts data len).bind fun slice => .ok (f slice)) = .error e) : BodyFault e := by
  rcases hslice : fromRawParts data len with e' | slice
  · rw [hslice] at h
    cases h
    exact fromRawParts_fault e hslice
  · rw [hslice] at h
    cases h

theorem readColumn_fault {w : W} {p : ℕ} {i : Int32} (e : Fault)
    (h : readColumn sqlite w p i = .error e) : BodyFault e := by
  rw [readColumn] at h
  dsimp only at h
  split_ifs at h
  · exact fromRawParts_bind_fault e h
  · exact fromRawParts_bind_fault e h
  · cases h
    exact ⟨by simp, by simp⟩

/-- **`column_value`** meets what a call has to. -/
theorem columnValue_ensures (hs : SqliteInv s) {box : ℕ} {i : UInt64} :
    Ensures (columnValue sqlite t box i) s
      (fun _ s' => CallMeets t ((SqliteAction.columnValue box i).path? s) s s')
      (FaultMeets t s) := by
  rw [columnValue]
  refine localStmt_bind_ensures hs fun stmt p s₁ hs₁ hstmt h => ?_
  refine ensures_get_bind ?_
  dsimp only
  split_ifs
  · exact ensures_pure (.refl hs₁ stmt)
  · exact ensures_lift_bind (fun value _ => ensures_pure (.refl hs₁ stmt)) readColumn_fault

/-- **`step`** meets what a call has to. -/
theorem step_ensures (hs : SqliteInv s) {box : ℕ} :
    Ensures (step sqlite t box) s
      (fun _ s' => CallMeets t ((SqliteAction.step box).path? s) s s') (FaultMeets t s) := by
  rw [step]
  refine localStmt_bind_ensures hs fun stmt p s₁ hs₁ hstmt h => ?_
  refine ensures_call_bind ?_
  have hworld := BodyMeets.world (t := t) hs₁ stmt (sqlite.step s₁.world p).2
  have hstmt' := hstmt
  split_ifs
  · exact ensures_pure hworld
  · exact ensures_pure hworld
  · exact (error_ensures hworld.inv hstmt' h).mono (fun _ _ h' => hworld.trans h')
      (fun _ h => h.elim)

/-- **`reset`** meets what a call has to. -/
theorem reset_ensures (hs : SqliteInv s) {box : ℕ} :
    Ensures (reset sqlite t box) s
      (fun _ s' => CallMeets t ((SqliteAction.reset box).path? s) s s') (FaultMeets t s) := by
  rw [reset]
  refine localStmt_bind_ensures hs fun stmt p s₁ hs₁ hstmt h => ?_
  refine ensures_call_bind ?_
  have hworld := BodyMeets.world (t := t) hs₁ stmt (sqlite.reset s₁.world p).2
  have hstmt' := hstmt
  split_ifs
  · exact (error_ensures hworld.inv hstmt' h).mono (fun _ _ h' => hworld.trans h')
      (fun _ h => h.elim)
  · exact ensures_pure hworld

/-- **`prepare`** meets what a call has to, and panics only on a path with a NUL byte. -/
theorem prepare_ensures (hs : SqliteInv s) {dbPath query : RocStr} {room : Bool} :
    Ensures (prepare sqlite t dbPath query room) s
      (fun answer s' => CallMeets t (some dbPath.bytes) s s' ∧ 0 ∉ dbPath.bytes ∧
        ∀ box, answer = .ok box → ∃ stmt, s'.statements[box]? = some stmt ∧
          stmt.dbPath = dbPath ∧ stmt.query = query)
      (fun e => FaultMeets t s e ∧ e = .nulError ∧ 0 ∈ dbPath.bytes) := by
  rw [prepare]
  have hnone : ∀ t' p, (t', p) ∈ (⟨dbPath, query, []⟩ : SqliteStatement θ).stmt →
      s.PreparedOn t' ⟨dbPath, query, []⟩ p := fun _ _ h => by simp at h
  refine ensures_bind ((threadLocalPrepare_ensures hs hnone).mono (fun _ _ h => h) ?_) ?_
  · rintro e ⟨rfl, hnul⟩
    exact ⟨⟨by simp, by simp⟩, rfl, hnul⟩
  rintro ⟨err | p, stmt⟩ s₁ ⟨hs₁, hconsults, hstatements, hextends, hprepared, hnul, hanswer⟩
  · exact ensures_pure ⟨⟨hs₁, ⟨_, rfl, hconsults⟩, .same hstatements⟩, hnul,
      fun box h => by simp at h⟩
  · have hp := hanswer p rfl
    have hok : ∀ stmt' ∈ s₁.statements ++ [stmt], s₁.StatementOk stmt' := by
      intro stmt' hmem
      rcases List.mem_append.mp hmem with hold | hnew
      · exact ⟨hs₁.prepared stmt' hold, hs₁.path stmt' hold⟩
      · rw [List.mem_singleton.mp hnew, SqliteHost.StatementOk, hextends.dbPath]
        exact ⟨hprepared, hnul⟩
    dsimp only
    split_ifs
    · refine ensures_get_bind (ensures_modify_bind (ensures_pure ⟨⟨hs₁.withStatements hok,
        ⟨_, rfl, ⟨hconsults.entries, hconsults.calls⟩, hconsults.others, hconsults.about⟩,
        .prepared stmt p hp ?_⟩, hnul, ?_⟩))
      · rw [hstatements]
      · intro box hbox
        cases hbox
        exact ⟨stmt, List.getElem?_concat_length, hextends.dbPath, hextends.query⟩
    · -- There is no room for the box: its statements are finalized again.
      have hworld := BodyMeets.world (t := t) hs₁ ⟨dbPath, query, []⟩
        (stmt.stmt.foldl (fun w entry => sqlite.finalize w entry.2) s₁.world)
      refine ensures_call_bind (ensures_pure ⟨⟨hworld.inv, ⟨_, rfl, hconsults.trans
        hworld.consults⟩, .same (hworld.statements.trans hstatements)⟩, hnul,
        fun box h => by simp at h⟩)

/-- **What a call does**, of any thread in any state between two calls. -/
theorem act_ensures (hs : SqliteInv s) {action : SqliteAction} :
    Ensures (act sqlite (t, action)) s (fun _ s' => CallMeets t (action.path? s) s s')
      (FaultMeets t s) := by
  rcases action with ⟨dbPath, query, room⟩ | ⟨box, bindings⟩ | box | ⟨box, i⟩ | box | box
  · exact ensures_map ((prepare_ensures hs).mono (fun _ _ h => h.1) fun _ h => h.1)
  · exact ensures_map (bind_ensures hs)
  · exact ensures_map (columns_ensures hs)
  · exact ensures_map (columnValue_ensures hs)
  · exact ensures_map (step_ensures hs)
  · exact ensures_map (reset_ensures hs)

/-- The invariant holds in every state that calls reach. -/
theorem runCalls_inv {calls : List (θ × SqliteAction)} {w : W} {answers : List SqliteAnswer}
    (h : runCalls sqlite calls (.init w) = .ok (answers, s)) : SqliteInv s :=
  (run_invariant SqliteInv (fun _ => True)
    (fun _ _ _ _ _ hs hact => ((act_ensures hs).of_ok hact).inv)
    (fun _ _ _ _ _ _ => trivial) (SqliteInv.init w)).1 answers s h

end BasicCli.Sqlite
