import BasicCli.Sqlite.Equiv.Calls
import BasicCli.Sqlite.Reference

/-!
# The first use of a statement by a thread

Each thread opens its own connections and prepares its own copy of a statement when it first uses
it.  `expect` takes for granted that both succeed.

* `act_ok_iff`: a call returns iff what it takes for granted holds in the state before it.
* `runCalls_ok_iff`: no call of any threads fails iff this is so for each of them.
-/

namespace BasicCli.Sqlite

open Lookup Run

variable {θ W : Type} {sqlite : Sqlite3 W} {s s' : SqliteHost θ W} {t : θ}

section

variable [DecidableEq θ] (sqlite)

/-! ### What a call takes for granted -/

/-- The connection of the thread for a path, and SQLite with it: the cached one, or the one that
SQLite opens. -/
def connect (t : θ) (path : RocStr) (s : SqliteHost θ W) : Option (ℕ × W) :=
  match (s.entries t).lookup path.bytes with
  | some connection => some (connection, s.world)
  | none =>
    let ((err, connection), w) := sqlite.openV2 s.world path.bytes
    if err = sqliteOk then some (connection, w) else none

/-- What the thread has prepared for a statement, and SQLite with it: what it has from before, or
what SQLite opens and prepares at the first use. -/
def firstUse (t : θ) (stmt : SqliteStatement θ) (s : SqliteHost θ W) : Option (ℕ × W) :=
  match stmt.stmt.lookup t with
  | some p => some (p, s.world)
  | none =>
    match connect sqlite t stmt.dbPath s with
    | none => none
    | some (connection, w) =>
      let ((err, p), w) :=
        sqlite.prepareV2 w connection stmt.query.bytes (.ofNat stmt.query.bytes.length)
      if err = sqliteOk then some (p, w) else none

/-- The box is one of a statement which the thread has prepared or can, and then `P` holds of what
is prepared and of SQLite. -/
def Begins (t : θ) (box : ℕ) (s : SqliteHost θ W) (P : ℕ → W → Prop) : Prop :=
  ∃ stmt, s.statements[box]? = some stmt ∧ ∃ p w, firstUse sqlite t stmt s = some (p, w) ∧ P p w

/-- None of the names that `bind` comes to contains NUL: it goes on after a name that is a parameter
to which SQLite binds the value. -/
def NamesReadable (p : ℕ) : List SqliteBindings → W → Prop
  | [], _ => True
  | binding :: bindings, w =>
    0 ∉ binding.name.bytes ∧
      let index := sqlite.bindParameterIndex w p binding.name.bytes
      let (err, w) := bindValue sqlite w p index binding.value
      (index ≠ 0 → err = sqliteOk → NamesReadable p bindings w)

/-- `from_raw_parts` may be given this. -/
def CPtr.Readable (data : CPtr) (len : UInt64) : Prop :=
  data.addr ≠ 0 ∧ len.toNat ≤ data.bytes.length

/-- SQLite tells a type of the column, and the bytes of a text or a blob can be read. -/
def ColumnReadable (p : ℕ) (w : W) (i : Int32) : Prop :=
  let type := sqlite.columnType w p i
  let len := (sqlite.columnBytes w p i).toInt64.toUInt64
  type ∈ [sqliteInteger, sqliteFloat, sqliteText, sqliteBlob, sqliteNull] ∧
    (type = sqliteText → CPtr.Readable (sqlite.columnText w p i) len) ∧
    (type = sqliteBlob → CPtr.Readable (sqlite.columnBlob w p i) len)

/-- What a call takes for granted of the state before it. -/
def Returns : θ × SqliteAction → SqliteHost θ W → Prop
  | (_, .prepare dbPath _ _), _ => 0 ∉ dbPath.bytes
  | (t, .bind box bindings), s =>
    Begins sqlite t box s fun p w =>
      -- SQLite has prepared a statement, and not null for a text without SQL.
      p ≠ 0 ∧
        let (err, w) := sqlite.clearBindings w p
        (err = sqliteOk → NamesReadable sqlite p bindings w)
  | (t, .columns box), s =>
    Begins sqlite t box s fun p w =>
      ∀ i < (sqlite.columnCount w p).toInt64.toUInt64.toNat, sqlite.columnName w p (.ofNat i) ≠ none
  | (t, .columnValue box i), s =>
    Begins sqlite t box s fun p w =>
      (i < (sqlite.columnCount w p).toInt64.toUInt64 →
        ColumnReadable sqlite p w i.toUInt32.toInt32)
  | (t, .step box), s => Begins sqlite t box s fun _ _ => True
  | (t, .reset box), s => Begins sqlite t box s fun _ _ => True

end

/-! ### The beginning of a call -/

variable [DecidableEq θ]

/-- Getting a connection by what SQLite does for it. -/
theorem getConnection_connect (hs : SqliteInv s) {path : RocStr} :
    Ensures (getConnection sqlite t path) s
      (fun answer s' => connect sqlite t path s = answer.toOption.map fun c => (c, s'.world))
      (fun _ => True) := by
  rw [Ensures, getConnection_eq (hs.free t), connect]
  rcases (s.entries t).lookup path.bytes with _ | connection
  · by_cases hnul : 0 ∈ path.bytes
    · simp only [if_pos hnul]
    · rcases sqlite.openV2 s.world path.bytes with ⟨⟨err, connection⟩, w⟩
      by_cases herr : err = sqliteOk
      · simp only [if_neg hnul, if_pos herr]
        rfl
      · simp only [if_neg hnul, if_neg herr]
        rfl
  · rfl

theorem firstUse_of_connect {stmt : SqliteStatement θ} {connection p : ℕ} {err : Int32} {w₁ w : W}
    (hlookup : stmt.stmt.lookup t = none)
    (hconnect : connect sqlite t stmt.dbPath s = some (connection, w₁))
    (hprepare : sqlite.prepareV2 w₁ connection stmt.query.bytes (.ofNat stmt.query.bytes.length) =
      ((err, p), w)) :
    firstUse sqlite t stmt s = if err = sqliteOk then some (p, w) else none := by
  simp only [firstUse, hlookup, hconnect, hprepare]

/-- The first use by what SQLite does for it. -/
theorem threadLocalPrepare_firstUse (hs : SqliteInv s) {stmt : SqliteStatement θ}
    (hstmt : ∀ t p, (t, p) ∈ stmt.stmt → s.PreparedOn t stmt p) :
    Ensures (threadLocalPrepare sqlite t stmt) s
      (fun r s' => firstUse sqlite t stmt s = r.1.toOption.map fun p => (p, s'.world))
      (fun _ => True) := by
  rcases hlookup : stmt.stmt.lookup t with _ | p
  · have hconnect : Ensures (getConnection sqlite t stmt.dbPath) s _ _ := getConnection_connect hs
    rcases hget : getConnection sqlite t stmt.dbPath s with e | ⟨err | connection, s₁⟩
    · rw [Ensures, threadLocalPrepare, bind_error hget]
      trivial
    · rw [Ensures, threadLocalPrepare, bind_ok hget, firstUse, hlookup, hconnect.of_ok hget]
      rfl
    · rcases hprepare : sqlite.prepareV2 s₁.world connection stmt.query.bytes
        (.ofNat stmt.query.bytes.length) with ⟨⟨err, p⟩, w⟩
      have hfirst := firstUse_of_connect hlookup (hconnect.of_ok hget) hprepare
      by_cases herr : err = sqliteOk
      · subst herr
        rw [Ensures, threadLocalPrepare_of_prepared hget hlookup hprepare, hfirst, if_pos rfl]
        rfl
      · obtain ⟨e, heq⟩ := threadLocalPrepare_of_refused hget hlookup hprepare herr
        rw [Ensures, heq, hfirst, if_neg herr]
        rfl
  · rw [Ensures, threadLocalPrepare_of_lookup hs hlookup (hstmt t p (mem_of_lookup hlookup)),
      firstUse, hlookup]
    rfl

/-- **A call begins** iff its thread has the statement or its first use succeeds. -/
theorem localStmt_firstUse (hs : SqliteInv s) {box : ℕ} :
    Ensures (localStmt sqlite t box) s
      (fun r s' => ∃ stmt, s.statements[box]? = some stmt ∧
        firstUse sqlite t stmt s = some (r.2, s'.world))
      (fun _ => ∀ stmt, s.statements[box]? = some stmt → firstUse sqlite t stmt s = none) := by
  rw [localStmt]
  refine ensures_get_bind ?_
  rcases hbox : s.statements[box]? with _ | stmt
  · exact ensures_throw fun stmt h => by simp at h
  have hstmt := hs.statementOk hbox
  refine ensures_bind (((threadLocalPrepare_firstUse hs hstmt.1).and
    (threadLocalPrepare_ensures hs hstmt.1)).mono (fun _ _ h => h.1) ?_) ?_
  · rintro e ⟨-, -, hnul⟩
    exact absurd hnul hstmt.2
  rintro ⟨err | p, stmt'⟩ s₁ hfirst
  · refine ensures_modify_bind (ensures_throw fun stmt'' h => ?_)
    cases h
    exact hfirst
  · exact ensures_modify_bind (ensures_pure ⟨stmt, rfl, hfirst⟩)

/-- A call returns iff it can begin and its rest returns. -/
theorem localStmt_bind_returns {α : Type} {f : SqliteStatement θ × ℕ → SqliteM θ W α}
    (hs : SqliteInv s) {box : ℕ} {P : ℕ → W → Prop}
    (hf : ∀ stmt p s₁, SqliteInv s₁ → s₁.StatementOk stmt → stmt.stmt.lookup t = some p →
      Ensures (f (stmt, p)) s₁ (fun _ _ => P p s₁.world) (fun _ => ¬ P p s₁.world)) :
    Ensures (localStmt sqlite t box >>= f) s (fun _ _ => Begins sqlite t box s P)
      (fun _ => ¬ Begins sqlite t box s P) := by
  refine ensures_bind (((localStmt_ensures hs).and (localStmt_firstUse hs)).mono
    (fun _ _ h => h) ?_) ?_
  · -- A first use that fails never comes to the rest of the call.
    rintro e ⟨-, hnone⟩ ⟨stmt, hbox, p, w, hfirst, -⟩
    rw [hnone stmt hbox] at hfirst
    cases hfirst
  rintro ⟨stmt', p⟩ s₁ ⟨⟨stmt, hbegun⟩, stmt'', hbox, hfirst⟩
  rw [hbegun.found] at hbox
  cases hbox
  have hstmt' := hbegun.inv.statementOk hbegun.box_eq
  refine (hf stmt' p s₁ hbegun.inv hstmt' hbegun.lookup).mono (fun a s' hP => ?_) fun e hP => ?_
  · exact ⟨stmt, hbegun.found, p, s₁.world, hfirst, hP⟩
  · rintro ⟨stmt'', hbox'', p', w, hfirst', hP'⟩
    rw [hbegun.found] at hbox''
    cases hbox''
    rw [hfirst] at hfirst'
    cases hfirst'
    exact hP hP'

/-! ### The functions -/

/-- The first binding, and the others where the loop comes to them. -/
theorem namesReadable_cons {p : ℕ} {binding : SqliteBindings} {bindings : List SqliteBindings}
    {w : W} :
    NamesReadable sqlite p (binding :: bindings) w ↔
      0 ∉ binding.name.bytes ∧
        (sqlite.bindParameterIndex w p binding.name.bytes ≠ 0 →
          (bindValue sqlite w p (sqlite.bindParameterIndex w p binding.name.bytes)
            binding.value).1 = sqliteOk →
          NamesReadable sqlite p bindings (bindValue sqlite w p
            (sqlite.bindParameterIndex w p binding.name.bytes) binding.value).2) := Iff.rfl

/-- **The loop of `bind`** returns iff each name that it comes to is a C string. On the bindings. -/
theorem bindLoop_returns (hs : SqliteInv s) {stmt : SqliteStatement θ} (hstmt : s.StatementOk stmt)
    {p : ℕ} (h : stmt.stmt.lookup t = some p) {bindings : List SqliteBindings} :
    Ensures (bindLoop sqlite t stmt p bindings) s
      (fun _ _ => NamesReadable sqlite p bindings s.world)
      (fun _ => ¬ NamesReadable sqlite p bindings s.world) := by
  induction bindings generalizing s with
  | nil => exact ensures_pure trivial
  | cons binding bindings ih =>
    rw [bindLoop, namesReadable_cons]
    refine ensures_lift_bind (fun name hname => ?_) fun e he => ?_
    · obtain ⟨hnul, rfl⟩ := cStringNew_ok hname
      refine ensures_get_bind ?_
      dsimp only
      -- A name that SQLite does not know ends the loop with an answer; the names behind it are not
      -- looked at.
      split_ifs with hindex
      · exact ensures_pure ⟨hnul, fun h => absurd hindex h⟩
      · refine ensures_call_bind ?_
        have hworld := BodyMeets.world (t := t) hs stmt (bindValue sqlite s.world p
          (sqlite.bindParameterIndex s.world p binding.name.bytes) binding.value).2
        have hstmt' := hstmt
        split_ifs with herr
        · exact (error_ensures hworld.inv hstmt' h).mono
            (fun _ _ _ => ⟨hnul, fun _ h => absurd h herr⟩) (fun _ h => h.elim)
        · refine (ih hworld.inv hstmt').mono (fun _ _ hrest => ⟨hnul, fun _ _ => hrest⟩) ?_
          intro e hrest hall
          exact hrest (hall.2 hindex (not_not.mp herr))
    · rw [cStringNew] at he
      split_ifs at he with hnul
      exact fun h => h.1 hnul

theorem bindRest_returns (hs : SqliteInv s) {stmt : SqliteStatement θ} (hstmt : s.StatementOk stmt)
    {p : ℕ} (h : stmt.stmt.lookup t = some p) {bindings : List SqliteBindings} :
    Ensures (call (fun w => sqlite.clearBindings w p) >>= fun err =>
        if err ≠ sqliteOk then do
          let e ← rocErrFromErrcode sqlite t stmt err
          return .error e
        else bindLoop sqlite t stmt p bindings) s
      (fun _ _ => (sqlite.clearBindings s.world p).1 = sqliteOk →
        NamesReadable sqlite p bindings (sqlite.clearBindings s.world p).2)
      (fun _ => ¬ ((sqlite.clearBindings s.world p).1 = sqliteOk →
        NamesReadable sqlite p bindings (sqlite.clearBindings s.world p).2)) := by
  refine ensures_call_bind ?_
  have hworld := BodyMeets.world (t := t) hs stmt (sqlite.clearBindings s.world p).2
  have hstmt' := hstmt
  split_ifs with herr
  · exact (error_ensures hworld.inv hstmt' h).mono (fun _ _ _ h => absurd h herr)
      (fun _ h => h.elim)
  · refine (bindLoop_returns hworld.inv hstmt' h).mono (fun _ _ hrest _ => hrest) ?_
    intro e hrest hall
    exact hrest (hall (not_not.mp herr))

/-- **`bind`** returns iff the condition of its call holds. -/
theorem bind_returns (hs : SqliteInv s) {box : ℕ} {bindings : List SqliteBindings} :
    Ensures (bind sqlite t box bindings) s
      (fun _ _ => Returns sqlite (t, .bind box bindings) s)
      (fun _ => ¬ Returns sqlite (t, .bind box bindings) s) := by
  rw [bind]
  refine localStmt_bind_returns hs fun stmt p s₁ hs₁ hstmt h => ?_
  dsimp only
  split_ifs with hp
  · exact ensures_throw fun h => h.1 hp
  · exact (bindRest_returns hs₁ hstmt h).mono (fun _ _ hrest => ⟨hp, hrest⟩)
      fun _ hrest hall => hrest hall.2

/-- The names of the columns are read iff SQLite gives each. -/
theorem columnNames_returns {w : W} {p : ℕ} :
    (∀ i < (sqlite.columnCount w p).toInt64.toUInt64.toNat,
      sqlite.columnName w p (.ofNat i) ≠ none) ↔ ∃ names, columnNames sqlite w p = .ok names := by
  rw [columnNames]
  constructor
  · intro h
    rcases hnames : List.mapM _ _ with e | names
    · obtain ⟨i, hi, hname⟩ := error_of_mapM hnames
      split at hname
      · cases hname
      · next hnone => exact absurd hnone (h i (List.mem_range.mp hi))
    · exact ⟨names, rfl⟩
  · rintro ⟨names, hnames⟩ i hi hnone
    obtain ⟨name, hname⟩ := ok_of_mapM hnames i (List.mem_range.mpr hi)
    rw [hnone] at hname
    cases hname

/-- **`columns`** returns iff the condition of its call holds. -/
theorem columns_returns (hs : SqliteInv s) {box : ℕ} :
    Ensures (columns sqlite t box) s (fun _ _ => Returns sqlite (t, .columns box) s)
      (fun _ => ¬ Returns sqlite (t, .columns box) s) := by
  rw [columns]
  refine localStmt_bind_returns hs fun stmt p s₁ hs₁ hstmt h => ?_
  refine ensures_get_bind (ensures_lift_bind (fun names hnames => ?_) fun e he h => ?_)
  · exact ensures_pure (columnNames_returns.mpr ⟨names, hnames⟩)
  · obtain ⟨names, hnames⟩ := columnNames_returns.mp h
    rw [he] at hnames
    cases hnames

/-- A slice is made iff there is a pointer to as many bytes. -/
theorem fromRawParts_returns {data : CPtr} {len : UInt64} :
    CPtr.Readable data len ↔ ∃ slice, fromRawParts data len = .ok slice := by
  rw [fromRawParts, CPtr.Readable]
  split_ifs with hnull hlen
  · exact ⟨fun h => absurd hnull h.1, fun h => by simp at h⟩
  · exact ⟨fun h => absurd h.2 (Nat.not_le_of_lt hlen), fun h => by simp at h⟩
  · exact ⟨fun _ => ⟨_, rfl⟩, fun _ => ⟨hnull, Nat.le_of_not_lt hlen⟩⟩

theorem bind_slice_returns {data : CPtr} {len : UInt64} {f : Slice → SqliteValue} :
    CPtr.Readable data len ↔
      ∃ value, (fromRawParts data len >>= fun slice => Pure.pure (f slice)) = .ok value := by
  rw [fromRawParts_returns]
  constructor
  · rintro ⟨slice, hslice⟩
    rw [hslice]
    exact ⟨f slice, rfl⟩
  · rintro ⟨value, hvalue⟩
    rcases hslice : fromRawParts data len with e | slice
    · rw [hslice] at hvalue
      cases hvalue
    · exact ⟨slice, rfl⟩

/-- A column is read iff its type is known and its bytes are there. -/
theorem readColumn_returns {w : W} {p : ℕ} {i : Int32} :
    ColumnReadable sqlite p w i ↔ ∃ value, readColumn sqlite w p i = .ok value := by
  rw [readColumn, ColumnReadable]
  dsimp only
  generalize sqlite.columnType w p i = type
  -- Only text and blobs make a slice, and an unknown type panics.
  split_ifs with hinteger hfloat htext hblob hnull
  · subst hinteger
    exact ⟨fun _ => ⟨_, rfl⟩,
      fun _ => ⟨by decide, fun h => absurd h (by decide), fun h => absurd h (by decide)⟩⟩
  · subst hfloat
    exact ⟨fun _ => ⟨_, rfl⟩,
      fun _ => ⟨by decide, fun h => absurd h (by decide), fun h => absurd h (by decide)⟩⟩
  · subst htext
    rw [← bind_slice_returns]
    exact ⟨fun h => h.2.1 rfl, fun h => ⟨by decide, fun _ => h, fun h => absurd h (by decide)⟩⟩
  · subst hblob
    rw [← bind_slice_returns]
    exact ⟨fun h => h.2.2 rfl, fun h => ⟨by decide, fun h => absurd h (by decide), fun _ => h⟩⟩
  · subst hnull
    exact ⟨fun _ => ⟨_, rfl⟩,
      fun _ => ⟨by decide, fun h => absurd h (by decide), fun h => absurd h (by decide)⟩⟩
  · refine ⟨fun h => ?_, fun h => by simp at h⟩
    have htype := h.1
    simp [hinteger, hfloat, htext, hblob, hnull] at htype

/-- **`column_value`** returns iff the condition of its call holds. -/
theorem columnValue_returns (hs : SqliteInv s) {box : ℕ} {i : UInt64} :
    Ensures (columnValue sqlite t box i) s
      (fun _ _ => Returns sqlite (t, .columnValue box i) s)
      (fun _ => ¬ Returns sqlite (t, .columnValue box i) s) := by
  rw [columnValue]
  refine localStmt_bind_returns hs fun stmt p s₁ hs₁ hstmt h => ?_
  refine ensures_get_bind ?_
  dsimp only
  split_ifs with hi
  · exact ensures_pure fun hlt => absurd hi (UInt64.not_le.mpr hlt)
  · refine ensures_lift_bind (fun value hvalue => ?_) fun e he h => ?_
    · exact ensures_pure fun _ => readColumn_returns.mpr ⟨value, hvalue⟩
    · obtain ⟨value, hvalue⟩ := readColumn_returns.mp (h (UInt64.not_le.mp hi))
      rw [he] at hvalue
      cases hvalue

/-- **`step`** returns iff the condition of its call holds. -/
theorem step_returns (hs : SqliteInv s) {box : ℕ} :
    Ensures (step sqlite t box) s (fun _ _ => Returns sqlite (t, .step box) s)
      (fun _ => ¬ Returns sqlite (t, .step box) s) := by
  rw [step]
  refine localStmt_bind_returns hs fun stmt p s₁ hs₁ hstmt h => ?_
  refine ensures_call_bind ?_
  have hworld := BodyMeets.world (t := t) hs₁ stmt (sqlite.step s₁.world p).2
  have hstmt' := hstmt
  split_ifs
  · exact ensures_pure trivial
  · exact ensures_pure trivial
  · exact (error_ensures hworld.inv hstmt' h).mono (fun _ _ _ => trivial) (fun _ h => h.elim)

theorem reset_returns (hs : SqliteInv s) {box : ℕ} :
    Ensures (reset sqlite t box) s (fun _ _ => Returns sqlite (t, .reset box) s)
      (fun _ => ¬ Returns sqlite (t, .reset box) s) := by
  rw [reset]
  refine localStmt_bind_returns hs fun stmt p s₁ hs₁ hstmt h => ?_
  refine ensures_call_bind ?_
  have hworld := BodyMeets.world (t := t) hs₁ stmt (sqlite.reset s₁.world p).2
  have hstmt' := hstmt
  split_ifs
  · exact (error_ensures hworld.inv hstmt' h).mono (fun _ _ _ => trivial) (fun _ h => h.elim)
  · exact ensures_pure trivial

/-- **`prepare`** returns iff the condition of its call holds. -/
theorem prepare_returns (hs : SqliteInv s) {dbPath query : RocStr} {room : Bool} :
    Ensures (prepare sqlite t dbPath query room) s
      (fun _ _ => Returns sqlite (t, .prepare dbPath query room) s)
      (fun _ => ¬ Returns sqlite (t, .prepare dbPath query room) s) :=
  (prepare_ensures hs).mono (fun _ _ h => h.2.1) fun _ h hnul => hnul h.2.2

/-- **A call returns iff what it takes for granted holds.** -/
theorem act_ok_iff (hs : SqliteInv s) (call : θ × SqliteAction) :
    (∃ r, act sqlite call s = .ok r) ↔ Returns sqlite call s := by
  obtain ⟨t, action⟩ := call
  refine Ensures.ok_iff ?_
  rcases action with ⟨dbPath, query, room⟩ | ⟨box, bindings⟩ | box | ⟨box, i⟩ | box | box
  · exact ensures_map (prepare_returns hs)
  · exact ensures_map (bind_returns hs)
  · exact ensures_map (columns_returns hs)
  · exact ensures_map (columnValue_returns hs)
  · exact ensures_map (step_returns hs)
  · exact ensures_map (reset_returns hs)

/-- **The calls of any threads, in any order**, all return iff each of them finds what it takes for
granted: above all, that SQLite opens the database and prepares the query for every thread at its
first use of a statement, as it has for the thread that prepared it. -/
theorem runCalls_ok_iff (sqlite : Sqlite3 W) (w : W) (calls : List (θ × SqliteAction)) :
    (∃ r, runCalls sqlite calls (.init w) = .ok r) ↔
      Along (act sqlite) (Returns sqlite) calls (.init w) := by
  refine run_ok_iff (fun call s answer s' hs h => ?_) (fun call s hs => act_ok_iff hs call)
    (SqliteInv.init w)
  exact ((act_ensures hs).of_ok h).inv

/-- A table of a private database: one thread has prepared the statement and used it, and the first
use by another thread fails. -/
theorem not_runCalls_ok_ref :
    let calls := [(0, refPrepare "CREATE TABLE t (x)"), (0, .step 0),
      (0, refPrepare "SELECT x FROM t"), (0, .step 1)]
    (runCalls refSqlite calls (.init .empty)).map Prod.fst =
        .ok [.prepare (.ok 0), .step (.ok .done), .prepare (.ok 1), .step (.ok .done)] ∧
      (runCalls refSqlite (calls ++ [(1, .step 1)]) (.init .empty)).map Prod.fst =
        .error .expect := by
  decide +kernel

end BasicCli.Sqlite
