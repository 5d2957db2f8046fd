import BasicCli.Ownership.Basic
import BasicCli.Run.Agree
import BasicCli.Sqlite.Equiv.Calls
import BasicCli.Sqlite.Laws
import BasicCli.Sqlite.Release
import Mathlib.Logic.Relation

/-!
# What a call does with the statements of SQLite

A call passes to SQLite one statement, which its thread has prepared, so that two SQLites that agree
on that one agree on the call (`act_eq_of_agree`); and it makes at most one, which it puts in its
box.
-/

namespace BasicCli.Sqlite

open Lookup Ownership Run

variable {θ W : Type} {live : W → Set ℕ} {P : W → ℕ → Prop} {sqlite sqlite' : Sqlite3 W}
  {s s' : SqliteHost θ W} {t : θ} {p : ℕ}

theorem Usable.of_eq {w w' : W} (h : Usable live w p) (hlive : live w' = live w) :
    Usable live w' p := by
  rwa [Usable, hlive]

theorem AgreeOn.refl (P : W → ℕ → Prop) (sqlite : Sqlite3 W) : AgreeOn P sqlite sqlite := by
  constructor <;> (intros; rfl)

/-- A function of SQLite that does the same for both, and what follows it. -/
theorem agrees_call_bind {α β : Type} {f f' : W → β × W} {g g' : β → SqliteM θ W α}
    {Q : α → SqliteHost θ W → Prop} (hf : f s.world = f' s.world)
    (hg : Agrees (g (f s.world).1) (g' (f s.world).1) { s with world := (f s.world).2 } Q) :
    Agrees (call f >>= g) (call f' >>= g') s Q := by
  have happly : (call f' >>= g') s = g' (f' s.world).1 { s with world := (f' s.world).2 } := rfl
  refine ⟨?_, hg.2⟩
  rw [happly, ← hf]
  exact hg.1

/-! ### Handles -/

/-- Null is no statement to hold. -/
theorem handles_append_null {stmt : SqliteStatement θ} :
    ({ stmt with stmt := stmt.stmt ++ [(t, 0)] } : SqliteStatement θ).handles = stmt.handles := by
  simp [SqliteStatement.handles]

theorem handles_append {stmt : SqliteStatement θ} (hp : p ≠ 0) :
    ({ stmt with stmt := stmt.stmt ++ [(t, p)] } : SqliteStatement θ).handles =
      stmt.handles ++ [p] := by
  simp [SqliteStatement.handles, hp]

theorem handles_cons_null {dbPath query : RocStr} {entries : List (θ × ℕ)} :
    (⟨dbPath, query, (t, 0) :: entries⟩ : SqliteStatement θ).handles =
      (⟨dbPath, query, entries⟩ : SqliteStatement θ).handles := by
  simp [SqliteStatement.handles]

theorem handles_cons {dbPath query : RocStr} {entries : List (θ × ℕ)} (hp : p ≠ 0) :
    (⟨dbPath, query, (t, p) :: entries⟩ : SqliteStatement θ).handles =
      p :: (⟨dbPath, query, entries⟩ : SqliteStatement θ).handles := by
  simp [SqliteStatement.handles, hp]

/-- What a box holds: the statements of its threads but null. -/
theorem mem_handles_iff {stmt : SqliteStatement θ} :
    p ∈ stmt.handles ↔ p ≠ 0 ∧ ∃ t, (t, p) ∈ stmt.stmt := by
  simp [SqliteStatement.handles, and_comm]

variable [DecidableEq θ]

/-! ### What is done with a statement -/

/-- What is done with the statement `p` once it has been prepared: null is not given to the
functions for parameters. -/
inductive SqliteStep (sqlite : Sqlite3 W) (p : ℕ) : W → W → Prop
  | openV2 (w : W) (path : List UInt8) : SqliteStep sqlite p w (sqlite.openV2 w path).2
  | step (w : W) : SqliteStep sqlite p w (sqlite.step w p).2
  | reset (w : W) : SqliteStep sqlite p w (sqlite.reset w p).2
  | clearBindings (hp : p ≠ 0) (w : W) : SqliteStep sqlite p w (sqlite.clearBindings w p).2
  | bindValue (hp : p ≠ 0) (w : W) (i : Int32) (value : SqliteValue) :
    SqliteStep sqlite p w (bindValue sqlite w p i value).2

/-- From `s` to `s'` something is done with the statement `p` and with no other. -/
structure Does (sqlite : Sqlite3 W) (p : ℕ) (s s' : SqliteHost θ W) : Prop where
  inv : SqliteInv s'
  statements : s'.statements = s.statements
  steps : Relation.ReflTransGen (SqliteStep sqlite p) s.world s'.world

theorem Does.refl (hs : SqliteInv s) : Does sqlite p s s := ⟨hs, rfl, .refl⟩

theorem Does.trans {s₁ s₂ s₃ : SqliteHost θ W} (h₁₂ : Does sqlite p s₁ s₂)
    (h₂₃ : Does sqlite p s₂ s₃) : Does sqlite p s₁ s₃ :=
  ⟨h₂₃.inv, h₂₃.statements.trans h₁₂.statements, h₁₂.steps.trans h₂₃.steps⟩

theorem SqliteInv.withWorld (hs : SqliteInv s) (w : W) : SqliteInv { s with world := w } :=
  ⟨hs.free, hs.entries_eq, hs.nodup, hs.notMem, hs.prepared, hs.path⟩

theorem Does.world (hs : SqliteInv s) {w : W} (hw : SqliteStep sqlite p s.world w) :
    Does sqlite p s { s with world := w } :=
  ⟨hs.withWorld w, rfl, .single hw⟩

/-- Asking for a message does nothing to the statements. -/
theorem Does.errmsg (hs : SqliteInv s) {connection : ℕ} :
    Does sqlite p s (s.called s.world [.errmsg t connection]) := by
  refine ⟨hs.called fun c hc t' => ?_, rfl, .refl⟩
  rw [List.mem_singleton.mp hc]
  rfl

/-- Nothing is made or finalised by it. -/
theorem SqliteStep.live_eq (hlaws : LifetimeLaws sqlite live) {w w' : W}
    (hp : Usable live w p) (h : SqliteStep sqlite p w w') : live w' = live w := by
  cases h with
  | openV2 => exact hlaws.openV2 w _
  | step => exact hlaws.step w p hp
  | reset => exact hlaws.reset w p hp
  | clearBindings hne => exact hlaws.clearBindings w p (hp.resolve_left hne)
  | bindValue hne _ i value =>
    have hp := hp.resolve_left hne
    cases value with
    | integer val => exact hlaws.bindInt64 w p i val hp
    | real bits => exact hlaws.bindDouble w p i bits hp
    | string val => exact hlaws.bindText64 w p i val.bytes hp
    | bytes val => exact hlaws.bindBlob64 w p i val hp
    | null => exact hlaws.bindNull w p i hp

/-- A call that finds its statement makes none and finalises none. -/
theorem Does.live_eq (hlaws : LifetimeLaws sqlite live) (hp : Usable live s.world p)
    (h : Does sqlite p s s') : live s'.world = live s.world := by
  have hsteps := h.steps
  generalize s'.world = w' at hsteps ⊢
  induction hsteps with
  | refl => rfl
  | tail _ hstep ih => exact (hstep.live_eq hlaws (hp.of_eq ih)).trans ih

/-! ### Connections -/

section

variable (hlaws : LifetimeLaws sqlite live) (hagree : AgreeOn P sqlite sqlite')

include hagree in
/-- No statement is used to get a connection. -/
theorem getConnection_eq_of_agree {path : RocStr} :
    getConnection sqlite t path = getConnection sqlite' t path := by
  simp only [getConnection, openV2, errFromConn, errmsg, hagree.openV2, hagree.errmsg,
    hagree.errstr]

theorem getConnection_does (p : ℕ) (hs : SqliteInv s) {path : RocStr} :
    Ensures (getConnection sqlite t path) s (fun _ s' => Does sqlite p s s')
      (fun _ => True) := by
  have hsteps : Ensures (getConnection sqlite t path) s
      (fun _ s' => Relation.ReflTransGen (SqliteStep sqlite p) s.world s'.world)
      (fun _ => True) := by
    -- The call comes to SQLite at most once, to open the database.
    have hopen : SqliteStep sqlite p s.world (sqlite.openV2 s.world path.bytes).2 :=
      .openV2 s.world path.bytes
    rw [Ensures, getConnection_eq (hs.free t)]
    rcases (s.entries t).lookup path.bytes with _ | connection
    · by_cases hnul : 0 ∈ path.bytes
      · simp only [if_pos hnul]
      · by_cases herr : (sqlite.openV2 s.world path.bytes).1.1 = sqliteOk
        · simp only [if_neg hnul, if_pos herr]
          exact .single hopen
        · simp only [if_neg hnul, if_neg herr]
          exact .single hopen
    · exact .refl
  refine ((getConnection_ensures hs).and hsteps).mono ?_ fun _ _ => trivial
  rintro answer s' ⟨⟨hs', -, hstatements, -⟩, hsteps⟩
  exact ⟨hs', hstatements, hsteps⟩

include hagree in
theorem rocErrFromErrcode_agrees (hs : SqliteInv s) {stmt : SqliteStatement θ}
    {code : Int32} :
    Agrees (rocErrFromErrcode sqlite t stmt code) (rocErrFromErrcode sqlite' t stmt code) s
      (fun _ s' => Does sqlite p s s') := by
  refine ⟨?_, ?_⟩
  · simp only [rocErrFromErrcode, getConnection_eq_of_agree hagree, errmsg, hagree.errmsg,
      hagree.errstr]
  · rw [rocErrFromErrcode]
    refine ensures_bind (getConnection_does p hs) ?_
    rintro (err | connection) s₁ hdoes
    · exact ensures_pure hdoes
    · exact hdoes.trans (.errmsg hdoes.inv)

include hagree in
/-- A call that ends with the error of a code. -/
theorem error_agrees (hs : SqliteInv s) {stmt : SqliteStatement θ} {code : Int32}
    {α : Type} :
    Agrees (rocErrFromErrcode sqlite t stmt code >>= fun e =>
        Pure.pure (.error e : Except SqliteError α))
      (rocErrFromErrcode sqlite' t stmt code >>= fun e => Pure.pure (.error e)) s
      (fun _ s' => Does sqlite p s s') :=
  agrees_bind (rocErrFromErrcode_agrees hagree hs) fun _ _ h => agrees_pure h

/-! ### One statement is made -/

/-- What `thread_local_prepare` does: on success, the thread has what is answered, which is new or
has been there. -/
structure Prepares (live : W → Set ℕ) (t : θ) (stmt : SqliteStatement θ) (s : SqliteHost θ W)
    (r : Except SqliteError ℕ × SqliteStatement θ) (s' : SqliteHost θ W) : Prop where
  acquires : Acquires (live s.world) stmt.handles (live s'.world) r.2.handles
  unchanged : ∀ err, r.1 = .error err → live s'.world = live s.world

omit [DecidableEq θ] in
include hlaws in
/-- A statement that is prepared is held by the box that it is put into, unless it is null. -/
theorem acquires_of_prepareV2 {stmt : SqliteStatement θ} {w w' : W} {connection : ℕ}
    (hprepare : sqlite.prepareV2 w connection stmt.query.bytes
      (.ofNat stmt.query.bytes.length) = ((sqliteOk, p), w')) :
    Acquires (live w) stmt.handles (live w')
      ({ stmt with stmt := stmt.stmt ++ [(t, p)] } : SqliteStatement θ).handles := by
  rcases hlaws.prepareV2 _ _ _ _ _ _ hprepare with ⟨rfl, hlive⟩ | ⟨hfresh, hlive⟩
  · rw [hlive, handles_append_null]
    exact .same
  · have hp : p ≠ 0 := by
      rintro rfl
      exact hlaws.null w' (hlive ▸ Set.mem_insert 0 _)
    rw [hlive, handles_append hp]
    exact .fresh hfresh

include hlaws in
/-- What a thread that has begun to call finds in the box. -/
theorem threadLocalPrepare_prepares (hs : SqliteInv s) {stmt : SqliteStatement θ}
    (hstmt : ∀ t p, (t, p) ∈ stmt.stmt → s.PreparedOn t stmt p) :
    Ensures (threadLocalPrepare sqlite t stmt) s (fun r s' => Prepares live t stmt s r s')
      (fun _ => True) := by
  have hconnect : Ensures (getConnection sqlite t stmt.dbPath) s
      (fun _ s' => live s'.world = live s.world) (fun _ => True) :=
    (getConnection_does 0 hs).mono
      (fun _ _ hdoes => hdoes.live_eq hlaws (.inl rfl)) fun _ h => h
  rcases hget : getConnection sqlite t stmt.dbPath s with e | ⟨err | connection, s₁⟩
  · rw [Ensures, threadLocalPrepare, bind_error hget]
    trivial
  · rw [Ensures, threadLocalPrepare, bind_ok hget]
    have hlive := hconnect.of_ok hget
    refine ⟨?_, fun _ _ => hlive⟩
    dsimp only
    rw [hlive]
    exact .same
  · -- Only here may a statement become live: when this thread has none and `sqlite3_prepare_v2`
    -- answers `SQLITE_OK`.
    have hlive := hconnect.of_ok hget
    rcases hlookup : stmt.stmt.lookup t with _ | p
    · rcases hprepare : sqlite.prepareV2 s₁.world connection stmt.query.bytes
        (.ofNat stmt.query.bytes.length) with ⟨⟨err, p⟩, w⟩
      by_cases herr : err = sqliteOk
      · subst herr
        rw [Ensures, threadLocalPrepare_of_prepared hget hlookup hprepare]
        refine ⟨?_, fun _ h => by cases h⟩
        rw [← hlive]
        exact acquires_of_prepareV2 hlaws hprepare
      · obtain ⟨e, heq⟩ := threadLocalPrepare_of_refused hget hlookup hprepare herr
        have hsame : live w = live s.world :=
          (hlaws.prepareV2_error _ _ _ _ _ _ _ herr hprepare).trans hlive
        rw [Ensures, heq]
        refine ⟨?_, fun _ _ => hsame⟩
        dsimp only [SqliteHost.called]
        rw [hsame]
        exact .same
    · rw [Ensures, threadLocalPrepare_of_lookup hs hlookup (hstmt t p (mem_of_lookup hlookup))]
      exact ⟨.same, fun _ h => by cases h⟩

include hagree in
theorem threadLocalPrepare_eq_of_agree {stmt : SqliteStatement θ} :
    threadLocalPrepare sqlite t stmt = threadLocalPrepare sqlite' t stmt := by
  simp only [threadLocalPrepare, getConnection_eq_of_agree hagree, prepareV2, errFromConn, errmsg,
    hagree.prepareV2, hagree.errmsg, hagree.errstr]

include hlaws hagree in
/-- The beginning of a call. -/
theorem localStmt_agrees (hs : SqliteInv s) {box : ℕ} :
    Agrees (localStmt sqlite t box) (localStmt sqlite' t box) s (fun r s' => ∃ stmt,
      Begun t box s stmt r.1 r.2 s' ∧
        Acquires (live s.world) stmt.handles (live s'.world) r.1.handles) := by
  have hacquires : Ensures (localStmt sqlite t box) s (fun r s' => ∀ stmt,
      s.statements[box]? = some stmt →
        Acquires (live s.world) stmt.handles (live s'.world) r.1.handles) (fun _ => True) := by
    rw [localStmt]
    refine ensures_get_bind ?_
    rcases hbox : s.statements[box]? with _ | stmt
    · exact ensures_throw trivial
    refine ensures_bind (threadLocalPrepare_prepares hlaws hs (hs.statementOk hbox).1) ?_
    rintro ⟨err | p, stmt'⟩ s₁ hprepares
    · exact ensures_modify_bind (ensures_throw trivial)
    · refine ensures_modify_bind (ensures_pure fun stmt₁ h₁ => ?_)
      cases h₁
      exact hprepares.acquires
  refine ⟨?_, ((localStmt_ensures hs).and hacquires).mono ?_ fun _ _ => trivial⟩
  · simp only [localStmt, threadLocalPrepare_eq_of_agree hagree]
  · rintro r s' ⟨⟨stmt, hbegun⟩, hstmt⟩
    exact ⟨stmt, hbegun, hstmt stmt hbegun.found⟩

include hagree in
theorem localStmt_eq_of_agree {box : ℕ} :
    localStmt sqlite t box = localStmt sqlite' t box := by
  simp only [localStmt, threadLocalPrepare_eq_of_agree hagree]

/-! ### The rest of a call -/

/-- What a call that is given a box does when it has its statement. -/
def body (sqlite : Sqlite3 W) (t : θ) :
    SqliteAction → SqliteStatement θ × ℕ → SqliteM θ W SqliteAnswer
  | .bind _ bindings, (stmt, p) => .bind <$>
    if p = 0 then throw .undefined
    else do
      let err ← call fun w => sqlite.clearBindings w p
      if err ≠ sqliteOk then return .error (← rocErrFromErrcode sqlite t stmt err)
      else bindLoop sqlite t stmt p bindings
  | .columns _, (_, p) => .columns <$> do
    let names ← columnNames sqlite (← get).world p
    return BasicCli.columns names
  | .columnValue _ i, (_, p) => .columnValue <$> do
    let w := (← get).world
    let count := (sqlite.columnCount w p).toInt64.toUInt64
    if i ≥ count then
      return .error ⟨sqliteError,
        .fromStr ("column index out of range: " ++ toString i ++ " of " ++ toString count)⟩
    else
      let value ← readColumn sqlite w p i.toUInt32.toInt32
      return .ok value
  | .step _, (stmt, p) => .step <$> do
    let err ← call fun w => sqlite.step w p
    if err = sqliteRow then return .ok .row
    else if err = sqliteDone then return .ok .done
    else return .error (← rocErrFromErrcode sqlite t stmt err)
  | .reset _, (stmt, p) => .reset <$> do
    let err ← call fun w => sqlite.reset w p
    if err ≠ sqliteOk then return .error (← rocErrFromErrcode sqlite t stmt err)
    else return .ok ()
  -- `prepare` is not given a box.
  | .prepare .., _ => throw .undefined

/-- Every function but `prepare` is the beginning of a call and a rest. -/
theorem act_eq_body {action : SqliteAction} {box : ℕ} (hbox : action.box? = some box) :
    act sqlite (t, action) = localStmt sqlite t box >>= body sqlite t action := by
  -- Every call but `prepare` begins with `local_stmt`.
  rcases action with ⟨dbPath, query, room⟩ | ⟨box, bindings⟩ | box | ⟨box, i⟩ | box | box
  · cases hbox
  · cases hbox
    rw [act, bind, map_bind]
    rfl
  · cases hbox
    rw [act, columns, map_bind]
    rfl
  · cases hbox
    rw [act, columnValue, map_bind]
    rfl
  · cases hbox
    rw [act, step, map_bind]
    rfl
  · cases hbox
    rw [act, reset, map_bind]
    rfl

section

variable {hagree}

/-- **A value is bound** to the statement that the call is about. -/
theorem bindValue_agrees {w : W} (hp : P w p) (hne : p ≠ 0) (hagree : AgreeOn P sqlite sqlite')
    {i : Int32} {value : SqliteValue} :
    bindValue sqlite w p i value = bindValue sqlite' w p i value := by
  cases value with
  | integer val => rw [bindValue, bindValue, hagree.bindInt64 w p hp hne]
  | real bits => rw [bindValue, bindValue, hagree.bindDouble w p hp hne]
  | string val => rw [bindValue, bindValue, hagree.bindText64 w p hp hne]
  | bytes val => rw [bindValue, bindValue, hagree.bindBlob64 w p hp hne]
  | null => rw [bindValue, bindValue, hagree.bindNull w p hp hne]

end

variable (hkeeps : ∀ {w w' : W}, P w p → SqliteStep sqlite p w w' → P w' p)

include hagree

omit [DecidableEq θ] in
theorem columnNames_eq_of_agree {w : W} (hp : P w p) :
    columnNames sqlite w p = columnNames sqlite' w p := by
  simp only [columnNames, hagree.columnCount w p hp, hagree.columnName w p hp]

omit [DecidableEq θ] in
theorem readColumn_eq_of_agree {w : W} (hp : P w p) {i : Int32} :
    readColumn sqlite w p i = readColumn sqlite' w p i := by
  simp only [readColumn, hagree.columnType w p hp, hagree.columnInt64 w p hp,
    hagree.columnDouble w p hp, hagree.columnText w p hp, hagree.columnBlob w p hp,
    hagree.columnBytes w p hp]

include hkeeps

/-- **The bindings**, one after the other: each is bound to the statement of the call. On the
list. -/
theorem bindLoop_agrees (hs : SqliteInv s) (hp : P s.world p) (hne : p ≠ 0)
    {stmt : SqliteStatement θ} {bindings : List SqliteBindings} :
    Agrees (bindLoop sqlite t stmt p bindings) (bindLoop sqlite' t stmt p bindings) s
      (fun _ s' => Does sqlite p s s') := by
  induction bindings generalizing s with
  | nil => exact agrees_pure (.refl hs)
  | cons binding bindings ih =>
    rw [bindLoop, bindLoop]
    refine agrees_lift_bind rfl fun name _ => agrees_get_bind ?_
    rw [hagree.bindParameterIndex s.world p hp hne]
    dsimp only
    split_ifs
    · exact agrees_pure (.refl hs)
    · refine agrees_call_bind (bindValue_agrees hp hne hagree) ?_
      have hstep : SqliteStep sqlite p s.world _ :=
        .bindValue hne s.world (sqlite'.bindParameterIndex s.world p name) binding.value
      have hdoes := Does.world hs hstep
      split_ifs
      · exact (error_agrees hagree hdoes.inv).mono fun _ _ h => hdoes.trans h
      · exact (ih hdoes.inv (hkeeps hp hstep)).mono fun _ _ h => hdoes.trans h

/-- **With its statement**, a call does the same with SQLites that agree on that statement, and does
something with no other. -/
theorem body_agrees (hs : SqliteInv s) (hp : P s.world p) (action : SqliteAction)
    {stmt : SqliteStatement θ} :
    Agrees (body sqlite t action (stmt, p)) (body sqlite' t action (stmt, p)) s
      (fun _ s' => Does sqlite p s s') := by
  -- One case for each call; `prepare`, which has no box yet, has no body.
  rcases action with ⟨dbPath, query, room⟩ | ⟨box, bindings⟩ | box | ⟨box, i⟩ | box | box
  · exact agrees_throw
  · rw [body, body]
    refine agrees_map ?_
    split_ifs with hne
    · exact agrees_throw
    refine agrees_call_bind (hagree.clearBindings s.world p hp hne) ?_
    have hstep : SqliteStep sqlite p s.world _ := .clearBindings hne s.world
    have hdoes := Does.world hs hstep
    split_ifs
    · exact (error_agrees hagree hdoes.inv).mono fun _ _ h => hdoes.trans h
    · exact (bindLoop_agrees hagree hkeeps hdoes.inv (hkeeps hp hstep) hne).mono
        fun _ _ h => hdoes.trans h
  · rw [body, body]
    refine agrees_map (agrees_get_bind ?_)
    exact agrees_lift_bind (columnNames_eq_of_agree hagree hp) fun names _ =>
      agrees_pure (.refl hs)
  · rw [body, body]
    refine agrees_map (agrees_get_bind ?_)
    dsimp only
    rw [hagree.columnCount s.world p hp]
    split_ifs
    · exact agrees_pure (.refl hs)
    · exact agrees_lift_bind (readColumn_eq_of_agree hagree hp) fun value _ =>
        agrees_pure (.refl hs)
  · rw [body, body]
    refine agrees_map (agrees_call_bind (hagree.step s.world p hp) ?_)
    have hdoes : Does sqlite p s _ := .world hs (.step s.world)
    split_ifs
    · exact agrees_pure hdoes
    · exact agrees_pure hdoes
    · exact (error_agrees hagree hdoes.inv).mono fun _ _ h => hdoes.trans h
  · rw [body, body]
    refine agrees_map (agrees_call_bind (hagree.reset s.world p hp) ?_)
    have hdoes : Does sqlite p s _ := .world hs (.reset s.world)
    split_ifs
    · exact (error_agrees hagree hdoes.inv).mono fun _ _ h => hdoes.trans h
    · exact agrees_pure hdoes

end

/-- **A call uses one statement**, that which its thread has for the box: what SQLite would do with
any other makes no difference. -/
theorem act_eq_of_agree (hs : SqliteInv s) {action : SqliteAction} {box : ℕ}
    (hbox : action.box? = some box) {stmt : SqliteStatement θ} {s₁ : SqliteHost θ W}
    (hlocal : localStmt sqlite t box s = .ok ((stmt, p), s₁))
    (hagree : AgreeOn (fun _ q => q = p) sqlite sqlite') :
    act sqlite (t, action) s = act sqlite' (t, action) s := by
  have hbegun : Ensures (localStmt sqlite t box) s _ _ := localStmt_ensures hs
  obtain ⟨stmt₀, hbegun⟩ := hbegun.of_ok hlocal
  rw [act_eq_body hbox, act_eq_body hbox, ← localStmt_eq_of_agree hagree]
  refine bind_eq_bind rfl fun r s' hr => ?_
  rw [hlocal] at hr
  cases hr
  exact (body_agrees hagree (fun h _ => h) hbegun.inv rfl action).1

end BasicCli.Sqlite
