import BasicCli.Sqlite.Equiv.Threads

/-!
# The strings that SQLite is given

A `RocStr` has any length and any characters.  SQLite takes paths and names that end in NUL, and
counts the bytes of a query in an `i32`.

What a call gives to SQLite is told by what it depends on: it passes whole strings only if it does
the same with every SQLite that does the same with these (`StringsArrive`).  `stringsArrive_iff`
says when that is so.
-/

namespace BasicCli.Sqlite

open Lookup Run

variable {θ W : Type} {sqlite : Sqlite3 W} {s s' : SqliteHost θ W} {t : θ}

/-! ### Whole strings -/

/-- The strings of a call: those of its statement, and the names of its bindings. -/
structure CallStrings where
  path : RocStr
  query : RocStr
  names : List RocStr

/-- The functions of SQLite that take strings, in another version that does the same with whole
strings: with the path, with the query and the number of its bytes, and with the names. -/
structure SameOn (sqlite : Sqlite3 W) (strings : CallStrings) where
  openV2 : W → List UInt8 → (Int32 × ℕ) × W
  prepareV2 : W → ℕ → List UInt8 → Int32 → (Int32 × ℕ) × W
  bindParameterIndex : W → ℕ → List UInt8 → Int32
  openV2_eq : ∀ w, openV2 w strings.path.bytes = sqlite.openV2 w strings.path.bytes
  prepareV2_eq : ∀ w connection (nByte : Int32), nByte.toInt = strings.query.bytes.length →
    prepareV2 w connection strings.query.bytes nByte =
      sqlite.prepareV2 w connection strings.query.bytes nByte
  bindParameterIndex_eq : ∀ w p, ∀ name ∈ strings.names,
    bindParameterIndex w p name.bytes = sqlite.bindParameterIndex w p name.bytes

/-- The SQLite with these functions. -/
def SameOn.sqlite3 {strings : CallStrings} (other : SameOn sqlite strings) : Sqlite3 W :=
  { sqlite with
    openV2 := other.openV2
    prepareV2 := other.prepareV2
    bindParameterIndex := other.bindParameterIndex }

/-- The call returns, and SQLite is given nothing but whole strings: what it would do with others
makes no difference. -/
structure StringsArrive [DecidableEq θ] (sqlite : Sqlite3 W) (strings : CallStrings)
    (call : θ × SqliteAction) (s : SqliteHost θ W) : Prop where
  returns : ∃ r, act sqlite call s = .ok r
  whole : ∀ other : SameOn sqlite strings, act other.sqlite3 call s = act sqlite call s

/-! ### The count of the bytes -/

theorem toInt_ofNat_iff {n : ℕ} : (Int32.ofNat n).toInt = n ↔ n < 2 ^ 31 := by
  constructor
  · intro h
    have hlt := Int32.toInt_lt (.ofNat n)
    rw [h] at hlt
    exact_mod_cast hlt
  · intro h
    exact Int32.toInt_ofNat_of_lt h

/-! ### What does not depend on other strings -/

variable [DecidableEq θ]

section

variable {strings : CallStrings} (other : SameOn sqlite strings) {stmt : SqliteStatement θ}
  {bindings : List SqliteBindings}

/-- A path with NUL does not come to `sqlite3_open_v2`, and another comes to it whole. -/
theorem getConnection_other (hs : SqliteInv s) :
    getConnection other.sqlite3 t strings.path s = getConnection sqlite t strings.path s := by
  have hopen : other.sqlite3.openV2 s.world strings.path.bytes =
      sqlite.openV2 s.world strings.path.bytes := other.openV2_eq s.world
  rw [getConnection_eq (hs.free t), getConnection_eq (hs.free t), hopen]
  rfl

omit [DecidableEq θ] in
theorem connect_other (s : SqliteHost θ W) :
    connect other.sqlite3 t strings.path s = connect sqlite t strings.path s := by
  have hopen : other.sqlite3.openV2 s.world strings.path.bytes =
      sqlite.openV2 s.world strings.path.bytes := other.openV2_eq s.world
  rw [connect, connect, hopen]

/-- The messages of errors are not asked for by strings. -/
theorem rocErrFromErrcode_other (hs : SqliteInv s) (hpath : stmt.dbPath = strings.path)
    {code : Int32} :
    rocErrFromErrcode other.sqlite3 t stmt code s = rocErrFromErrcode sqlite t stmt code s := by
  rw [rocErrFromErrcode, rocErrFromErrcode, hpath]
  refine bind_eq_bind (getConnection_other other hs) fun connection s₁ _ => ?_
  rcases connection with err | connection
  · rfl
  · rfl

/-- The query comes to `sqlite3_prepare_v2` whole, if its bytes can be counted. -/
theorem threadLocalPrepare_other (hs : SqliteInv s) (hpath : stmt.dbPath = strings.path)
    (hquery : stmt.query = strings.query)
    (hlen : stmt.stmt.lookup t = none → connect sqlite t stmt.dbPath s ≠ none →
      stmt.query.bytes.length < 2 ^ 31) :
    threadLocalPrepare other.sqlite3 t stmt s = threadLocalPrepare sqlite t stmt s := by
  have hconnect : Ensures (getConnection sqlite t stmt.dbPath) s _ _ := getConnection_connect hs
  rw [hpath] at hconnect hlen
  rw [threadLocalPrepare, threadLocalPrepare, hpath]
  refine bind_eq_bind (getConnection_other other hs) fun connection s₁ hget => ?_
  rcases connection with err | connection
  · rfl
  rcases hlookup : stmt.stmt.lookup t with _ | p
  · -- The thread prepares the query now, so its bytes can be counted.
    have hsome : connect sqlite t strings.path s = some (connection, s₁.world) :=
      hconnect.of_ok hget
    have hcount : (Int32.ofNat stmt.query.bytes.length).toInt = stmt.query.bytes.length :=
      toInt_ofNat_iff.mpr (hlen hlookup (by simp [hsome]))
    refine bind_eq_bind ?_ fun _ _ _ => rfl
    rw [hquery] at hcount ⊢
    have hsame : other.sqlite3.prepareV2 s₁.world connection strings.query.bytes
        (.ofNat strings.query.bytes.length) = _ := other.prepareV2_eq s₁.world connection _ hcount
    rcases hprepare : sqlite.prepareV2 s₁.world connection strings.query.bytes
      (.ofNat strings.query.bytes.length) with ⟨⟨err, p⟩, w⟩
    rw [prepareV2_eq hprepare, prepareV2_eq (hsame.trans hprepare)]
  · rfl

theorem localStmt_other (hs : SqliteInv s) {box : ℕ} (hbox : s.statements[box]? = some stmt)
    (hpath : stmt.dbPath = strings.path) (hquery : stmt.query = strings.query)
    (hlen : stmt.stmt.lookup t = none → connect sqlite t stmt.dbPath s ≠ none →
      stmt.query.bytes.length < 2 ^ 31) :
    localStmt other.sqlite3 t box s = localStmt sqlite t box s := by
  rw [localStmt, localStmt]
  refine bind_eq_bind rfl fun s₁ s₂ hget => ?_
  cases hget
  rw [hbox]
  exact bind_eq_bind (threadLocalPrepare_other other hs hpath hquery hlen) fun _ _ _ => rfl

/-- A name with NUL does not come to `sqlite3_bind_parameter_index`, and another comes to it
whole. -/
theorem bindLoop_other (hs : SqliteInv s) (hpath : stmt.dbPath = strings.path) {p : ℕ}
    (hnames : ∀ binding ∈ bindings, binding.name ∈ strings.names) :
    bindLoop other.sqlite3 t stmt p bindings s = bindLoop sqlite t stmt p bindings s := by
  induction bindings generalizing s with
  | nil => rfl
  | cons binding bindings ih =>
    have hbinding := hnames binding List.mem_cons_self
    have hrest := fun b (hb : b ∈ bindings) => hnames b (List.mem_cons_of_mem binding hb)
    rw [bindLoop, bindLoop]
    rcases hnew : cStringNew binding.name with e | name
    · rw [bind_lift_error rfl, bind_lift_error rfl]
    -- Behind `CString::new` the name is the whole string.
    obtain ⟨-, rfl⟩ := cStringNew_ok hnew
    have hindex : other.sqlite3.bindParameterIndex s.world p binding.name.bytes =
        sqlite.bindParameterIndex s.world p binding.name.bytes :=
      other.bindParameterIndex_eq s.world p _ hbinding
    -- Values are no strings of the call: binding them is the same function.
    have hvalue : bindValue other.sqlite3 = bindValue sqlite := by
      funext w p i value
      cases value <;> rfl
    rw [bind_lift_ok rfl, bind_lift_ok rfl]
    refine bind_eq_bind rfl fun s₁ s₂ hget => ?_
    cases hget
    rw [hindex, hvalue]
    dsimp only
    split_ifs
    · rfl
    · refine bind_eq_bind rfl fun err s₁ hcall => ?_
      cases hcall
      have hworld := BodyMeets.world (t := t) hs stmt (bindValue sqlite s.world p
        (sqlite.bindParameterIndex s.world p binding.name.bytes) binding.value).2
      split_ifs
      · exact bind_eq_bind (rocErrFromErrcode_other other hworld.inv hpath) fun _ _ _ => rfl
      · exact ih hworld.inv hrest

theorem prepare_other (hs : SqliteInv s) {dbPath query : RocStr} {room : Bool}
    (other : SameOn sqlite ⟨dbPath, query, []⟩)
    (hlen : connect sqlite t dbPath s ≠ none → query.bytes.length < 2 ^ 31) :
    prepare other.sqlite3 t dbPath query room s = prepare sqlite t dbPath query room s := by
  rw [prepare, prepare]
  exact bind_eq_bind (threadLocalPrepare_other other hs rfl rfl fun _ => hlen) fun _ _ _ => rfl

theorem bind_other (hs : SqliteInv s) {box : ℕ} (hbox : s.statements[box]? = some stmt)
    (other : SameOn sqlite ⟨stmt.dbPath, stmt.query, bindings.map (·.name)⟩)
    (hlen : stmt.stmt.lookup t = none → connect sqlite t stmt.dbPath s ≠ none →
      stmt.query.bytes.length < 2 ^ 31) :
    bind other.sqlite3 t box bindings s = bind sqlite t box bindings s := by
  have hbegun : Ensures (localStmt sqlite t box) s _ _ := localStmt_ensures hs
  rw [bind, bind]
  refine bind_eq_bind (localStmt_other other hs hbox rfl rfl hlen) fun r s₁ hlocal => ?_
  obtain ⟨stmt', hbegun⟩ := hbegun.of_ok hlocal
  have hstmt' := hbegun.found
  -- `localStmt` has found the statement of the box.
  rw [hbox] at hstmt'
  cases hstmt'
  obtain ⟨stmt', p⟩ := r
  dsimp only
  by_cases hp : p = 0
  · rw [if_pos hp, if_pos hp]
  rw [if_neg hp, if_neg hp]
  refine bind_eq_bind rfl fun err s₂ hcall => ?_
  cases hcall
  have hworld := BodyMeets.world (t := t) hbegun.inv stmt' (sqlite.clearBindings s₁.world p).2
  have hnames := fun binding (hb : binding ∈ bindings) =>
    List.mem_map_of_mem (f := fun b : SqliteBindings => b.name) hb
  split_ifs
  · exact bind_eq_bind (rocErrFromErrcode_other other hworld.inv hbegun.ext.dbPath)
      fun _ _ _ => rfl
  · exact bindLoop_other other hworld.inv hbegun.ext.dbPath hnames

end

/-! ### Counts that are not right -/

/-- A SQLite that, told another number of bytes, accepts the queries which `sqlite` refuses, and
refuses the others. -/
def SameOn.flipped (sqlite : Sqlite3 W) (strings : CallStrings) : SameOn sqlite strings where
  openV2 := sqlite.openV2
  prepareV2 w connection query nByte :=
    if nByte.toInt = strings.query.bytes.length then sqlite.prepareV2 w connection query nByte
    else
      let ((err, p), w) := sqlite.prepareV2 w connection query nByte
      ((if err = sqliteOk then 1 else sqliteOk, p), w)
  bindParameterIndex := sqlite.bindParameterIndex
  openV2_eq _ := rfl
  prepareV2_eq _ _ _ h := if_pos h
  bindParameterIndex_eq _ _ _ _ := rfl

omit [DecidableEq θ] in
theorem SameOn.flipped_prepareV2 (sqlite : Sqlite3 W) (strings : CallStrings) (connection : ℕ)
    (w : W) (h : 2 ^ 31 ≤ strings.query.bytes.length) :
    ((flipped sqlite strings).sqlite3.prepareV2 w connection strings.query.bytes
        (.ofNat strings.query.bytes.length)).1.1 = sqliteOk ↔
      (sqlite.prepareV2 w connection strings.query.bytes
        (.ofNat strings.query.bytes.length)).1.1 ≠ sqliteOk := by
  have hcount : (Int32.ofNat strings.query.bytes.length).toInt ≠ strings.query.bytes.length :=
    fun heq => Nat.not_lt.mpr h (toInt_ofNat_iff.mp heq)
  have hflip : (flipped sqlite strings).sqlite3.prepareV2 w connection strings.query.bytes
      (.ofNat strings.query.bytes.length) = _ := if_neg hcount
  rw [hflip]
  dsimp only
  split_ifs with herr
  · exact ⟨fun h => absurd h (by decide), fun h => absurd herr h⟩
  · exact ⟨fun _ => herr, fun _ => rfl⟩

/-- `prepare` asks SQLite for a message iff the query is refused. -/
theorem prepare_calls {dbPath query : RocStr} {room : Bool} {connection : ℕ} {s₁ : SqliteHost θ W}
    (hget : getConnection sqlite t dbPath s = .ok (.ok connection, s₁)) :
    Ensures (act sqlite (t, .prepare dbPath query room)) s
      (fun _ s' => s'.calls.length = s₁.calls.length + 1 ↔
        (sqlite.prepareV2 s₁.world connection query.bytes
          (.ofNat query.bytes.length)).1.1 = sqliteOk) (fun _ => False) := by
  refine ensures_map ?_
  rcases hprepare : sqlite.prepareV2 s₁.world connection query.bytes
    (.ofNat query.bytes.length) with ⟨⟨err, p⟩, w⟩
  have hnone : (⟨dbPath, query, []⟩ : SqliteStatement θ).stmt.lookup t = none := rfl
  by_cases herr : err = sqliteOk
  · subst herr
    have hprepared : threadLocalPrepare sqlite t ⟨dbPath, query, []⟩ s = _ :=
      threadLocalPrepare_of_prepared hget hnone hprepare
    rw [Ensures, prepare, bind_ok hprepared]
    dsimp only
    split_ifs
    · exact ⟨fun _ => rfl, fun _ => List.length_append⟩
    · exact ⟨fun _ => rfl, fun _ => List.length_append⟩
  · obtain ⟨e, hrefused⟩ : ∃ e, threadLocalPrepare sqlite t ⟨dbPath, query, []⟩ s = _ :=
      threadLocalPrepare_of_refused hget hnone hprepare herr
    rw [Ensures, prepare, bind_ok hrefused]
    -- The message of a refusal is a second call.
    have hlen (w : W) (c c' : SqliteCall θ) :
        (s₁.called w [c, c']).calls.length = s₁.calls.length + 2 := List.length_append
    refine ⟨fun h => ?_, fun h => absurd h herr⟩
    rw [hlen] at h
    omega

theorem length_lt_of_prepare_whole (hs : SqliteInv s) {dbPath query : RocStr} {room : Bool}
    (hnul : 0 ∉ dbPath.bytes) (hconnect : connect sqlite t dbPath s ≠ none)
    (hwhole : act (SameOn.flipped sqlite ⟨dbPath, query, []⟩).sqlite3
        (t, .prepare dbPath query room) s = act sqlite (t, .prepare dbPath query room) s) :
    query.bytes.length < 2 ^ 31 := by
  by_contra hlong
  have hensures : Ensures (getConnection sqlite t dbPath) s _ _ :=
    (getConnection_ensures hs).and (getConnection_connect hs)
  -- Of `sqlite` and the flipped one, one accepts the query and the other asks for a message, so the
  -- numbers of their calls differ.
  rcases hget : getConnection sqlite t dbPath s with e | ⟨err | connection, s₁⟩
  · exact hnul (hensures.of_error hget).1.2
  · exact hconnect (hensures.of_ok hget).2
  · have hget' := (getConnection_other (SameOn.flipped sqlite ⟨dbPath, query, []⟩) hs).trans hget
    have hcalls : Ensures (act sqlite (t, .prepare dbPath query room)) s _ _ := prepare_calls hget
    have hcalls' : Ensures (act _ (t, .prepare dbPath query room)) s _ _ := prepare_calls hget'
    rcases hact : act sqlite (t, .prepare dbPath query room) s with e | ⟨answer, s'⟩
    · exact hcalls.of_error hact
    · have hflip := SameOn.flipped_prepareV2 sqlite ⟨dbPath, query, []⟩ connection s₁.world
        (Nat.not_lt.mp hlong)
      have h := hcalls.of_ok hact
      have h' := hcalls'.of_ok (hwhole.trans hact)
      have hboth := h'.symm.trans h
      rw [hflip] at hboth
      exact (not_iff_self hboth).elim

theorem bind_returns_iff (hs : SqliteInv s) {box : ℕ} {stmt : SqliteStatement θ}
    {bindings : List SqliteBindings} (hbox : s.statements[box]? = some stmt) :
    (∃ r, act sqlite (t, .bind box bindings) s = .ok r) ↔
      ∃ p w, firstUse sqlite t stmt s = some (p, w) ∧ p ≠ 0 ∧
        ((sqlite.clearBindings w p).1 = sqliteOk →
          NamesReadable sqlite p bindings (sqlite.clearBindings w p).2) := by
  rw [act_ok_iff hs]
  constructor
  · rintro ⟨stmt', hbox', h⟩
    rw [hbox] at hbox'
    cases hbox'
    exact h
  · exact fun h => ⟨stmt, hbox, h⟩

theorem length_lt_of_bind_whole (hs : SqliteInv s) {box : ℕ} {stmt : SqliteStatement θ}
    {bindings : List SqliteBindings} (hbox : s.statements[box]? = some stmt)
    (hlookup : stmt.stmt.lookup t = none) {names : List RocStr}
    (hreturns : ∃ r, act sqlite (t, .bind box bindings) s = .ok r)
    (hwhole : act (SameOn.flipped sqlite ⟨stmt.dbPath, stmt.query, names⟩).sqlite3
        (t, .bind box bindings) s = act sqlite (t, .bind box bindings) s) :
    stmt.query.bytes.length < 2 ^ 31 := by
  by_contra hlong
  have hreturns' := hreturns
  rw [← hwhole, bind_returns_iff hs hbox] at hreturns'
  obtain ⟨p, w, hfirst, -⟩ := (bind_returns_iff hs hbox).mp hreturns
  obtain ⟨p', w', hfirst', -⟩ := hreturns'
  -- Both have prepared the query, but only one of `sqlite` and the flipped one accepts it.
  rcases hsome : connect sqlite t stmt.dbPath s with _ | ⟨connection, w₁⟩
  · simp [firstUse, hlookup, hsome] at hfirst
  have hsome' := (connect_other (t := t)
    (SameOn.flipped sqlite ⟨stmt.dbPath, stmt.query, names⟩) s).trans hsome
  have hflip := SameOn.flipped_prepareV2 sqlite ⟨stmt.dbPath, stmt.query, names⟩
    connection w₁ (Nat.not_lt.mp hlong)
  rcases hprepare : sqlite.prepareV2 w₁ connection stmt.query.bytes
    (.ofNat stmt.query.bytes.length) with ⟨⟨err, p₁⟩, w₂⟩
  rcases hprepare' : (SameOn.flipped sqlite ⟨stmt.dbPath, stmt.query, names⟩).sqlite3.prepareV2 w₁
    connection stmt.query.bytes (.ofNat stmt.query.bytes.length) with ⟨⟨err', p₁'⟩, w₂'⟩
  rw [hprepare, hprepare'] at hflip
  rw [firstUse_of_connect hlookup hsome hprepare] at hfirst
  rw [firstUse_of_connect hlookup hsome' hprepare'] at hfirst'
  by_cases herr : err = sqliteOk
  · rw [if_neg fun h => hflip.mp h herr] at hfirst'
    cases hfirst'
  · rw [if_neg herr] at hfirst
    cases hfirst

/-! ### Whether the strings arrive -/

/-- **Strings come to SQLite whole** iff paths and the names that `bind` comes to have no NUL, the
query which a call prepares, on a database that can be opened, is shorter than 2 GiB, and for `bind`
SQLite has prepared it as a statement.  This is so for any calls of any threads.  A `prepare` whose
path has no NUL returns. -/
theorem stringsArrive_iff (sqlite : Sqlite3 W) (w : W) (calls : List (θ × SqliteAction))
    {answers : List SqliteAnswer} (h : runCalls sqlite calls (.init w) = .ok (answers, s)) (t : θ) :
    (∀ dbPath query room,
      (StringsArrive sqlite ⟨dbPath, query, []⟩ (t, .prepare dbPath query room) s ↔
        0 ∉ dbPath.bytes ∧
          (connect sqlite t dbPath s ≠ none → query.bytes.length < 2 ^ 31)) ∧
      (0 ∉ dbPath.bytes → ∃ r, act sqlite (t, .prepare dbPath query room) s = .ok r)) ∧
    ∀ box bindings stmt, s.statements[box]? = some stmt →
      (StringsArrive sqlite ⟨stmt.dbPath, stmt.query, bindings.map (·.name)⟩
          (t, .bind box bindings) s ↔
        (stmt.stmt.lookup t = none → stmt.query.bytes.length < 2 ^ 31) ∧
        ∃ p w, firstUse sqlite t stmt s = some (p, w) ∧ p ≠ 0 ∧
          ((sqlite.clearBindings w p).1 = sqliteOk →
            NamesReadable sqlite p bindings (sqlite.clearBindings w p).2)) := by
  have hs := runCalls_inv h
  refine ⟨fun dbPath query room => ?_, fun box bindings stmt hbox => ?_⟩
  · have hreturns : (∃ r, act sqlite (t, .prepare dbPath query room) s = .ok r) ↔
        0 ∉ dbPath.bytes := act_ok_iff hs (t, .prepare dbPath query room)
    refine ⟨⟨fun harrive => ?_, fun ⟨hnul, hlen⟩ => ?_⟩, hreturns.mpr⟩
    · have hnul := hreturns.mp harrive.returns
      exact ⟨hnul, fun hconnect =>
        length_lt_of_prepare_whole hs hnul hconnect (harrive.whole _)⟩
    · exact ⟨hreturns.mpr hnul, fun other => map_eq_map (prepare_other hs other hlen)⟩
  · -- A statement that this thread has prepared gives SQLite its query no second time.
    rw [← bind_returns_iff hs hbox]
    refine ⟨fun harrive => ⟨fun hlookup => ?_, harrive.returns⟩, fun ⟨hlen, hreturns⟩ => ?_⟩
    · exact length_lt_of_bind_whole hs hbox hlookup harrive.returns (harrive.whole _)
    · exact ⟨hreturns, fun other =>
        map_eq_map (bind_other hs hbox other fun hlookup _ => hlen hlookup)⟩

/-- A statement is prepared once more. -/
theorem stringsArrive_ref :
    ∃ answers s, runCalls refSqlite [(0, refPrepare "SELECT :v")] (.init .empty) =
        .ok (answers, s) ∧
      StringsArrive refSqlite ⟨.fromStr ":memory:", .fromStr "SELECT :v", []⟩
        (0, refPrepare "SELECT :v") s := by
  have hrun : (runCalls refSqlite [(0, refPrepare "SELECT :v")] (.init .empty)).map Prod.fst =
      .ok [.prepare (.ok 0)] := by
    decide +kernel
  obtain ⟨s, h⟩ := exists_of_answers hrun
  refine ⟨_, s, h, ?_⟩
  have hiff := stringsArrive_iff refSqlite .empty _ h 0
  exact (hiff.1 (.fromStr ":memory:") (.fromStr "SELECT :v") true).1.mpr
    ⟨by decide +kernel, fun _ => by decide +kernel⟩

/-- A path and a name with NUL in the middle make the host panic. -/
theorem not_stringsArrive_nul :
    ¬ StringsArrive refSqlite ⟨.fromStr "a\x00b", .fromStr "SELECT :v", []⟩
      (0, .prepare (.fromStr "a\x00b") (.fromStr "SELECT :v") true)
      (.init .empty : SqliteHost ℕ RefWorld) ∧
    (runCalls refSqlite [(0, refPrepare "SELECT :v"), (0, .bind 0 [⟨.fromStr ":v\x00", .null⟩])]
      (.init .empty)).map Prod.fst = .error .nulError := by
  refine ⟨fun h => ?_, by decide +kernel⟩
  have hget : getConnection refSqlite 0 (.fromStr "a\x00b")
      (.init .empty : SqliteHost ℕ RefWorld) = .error .nulError := by
    rw [getConnection_eq rfl]
    rfl
  have hpanic : act refSqlite (0, .prepare (.fromStr "a\x00b") (.fromStr "SELECT :v") true)
      (.init .empty : SqliteHost ℕ RefWorld) = .error .nulError := by
    rw [act, map_error, prepare]
    exact bind_error (bind_error hget)
  obtain ⟨r, hr⟩ := h.returns
  rw [hpanic] at hr
  cases hr

end BasicCli.Sqlite
