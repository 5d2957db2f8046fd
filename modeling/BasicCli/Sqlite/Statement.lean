import BasicCli.Run.Basic
import BasicCli.Sqlite.Sqlite3
import Mathlib.Logic.Function.Basic

/-!
# Connections and statements

`crates/roc_sqlite`: the connections of each thread, the statements with what each thread has
prepared for them, and the functions that a program calls.  A thread is a value of `θ`, and the box
of a statement is its place among the statements.
-/

namespace BasicCli.Sqlite

/-! ### `RefCell` -/

/-- `std::cell::RefCell`: a value, the number of `Ref`s and whether there is a `RefMut`. -/
structure RefCell (α : Type) where
  value : α
  readers : ℕ
  writer : Bool

namespace RefCell

variable {α : Type}

/-- `RefCell::new`. -/
def new (value : α) : RefCell α := ⟨value, 0, false⟩

/-- `RefCell::borrow`: a `Ref` is made. -/
def borrow (c : RefCell α) : Except Fault (RefCell α) :=
  if c.writer then .error .alreadyBorrowed else .ok { c with readers := c.readers + 1 }

/-- A `Ref` is dropped. -/
def dropRef (c : RefCell α) : RefCell α := { c with readers := c.readers - 1 }

/-- `RefCell::borrow_mut`: a `RefMut` is made. -/
def borrowMut (c : RefCell α) : Except Fault (RefCell α) :=
  if c.writer ∨ c.readers ≠ 0 then .error .alreadyBorrowed else .ok { c with writer := true }

/-- A `RefMut` is dropped after it has written `value`. -/
def dropRefMut (c : RefCell α) (value : α) : RefCell α := { c with value, writer := false }

end RefCell

/-! ### State -/

/-- `SqliteStatement`.  `stmt` is the `ThreadLocal`: what each thread has prepared, in the order in
which they did. -/
structure SqliteStatement (θ : Type) where
  dbPath : RocStr
  query : RocStr
  stmt : List (θ × ℕ)
deriving DecidableEq, Repr

/-- A call of SQLite that opened, prepared or asked for a message, with its answer. -/
inductive SqliteCall (θ : Type)
  | openV2 (t : θ) (path : List UInt8) (err : Int32) (connection : ℕ)
  | prepareV2 (t : θ) (connection : ℕ) (query : List UInt8) (err : Int32) (stmt : ℕ)
  | errmsg (t : θ) (connection : ℕ)
deriving DecidableEq, Repr

/-- What there is in the process: `SQLITE_CONNECTIONS` of each thread, the statements in the heap
and SQLite.  `calls` records what has been asked of SQLite; nothing reads it. -/
structure SqliteHost (θ W : Type) where
  connections : θ → RefCell (List (List UInt8 × ℕ))
  statements : List (SqliteStatement θ)
  world : W
  calls : List (SqliteCall θ)

/-- A function of the host: it answers and changes the state, or does not return. -/
abbrev SqliteM (θ W : Type) := StateT (SqliteHost θ W) (Except Fault)

section

variable {θ W : Type} [DecidableEq θ] (sqlite : Sqlite3 W)

/-- Nothing has been opened. -/
def SqliteHost.init (world : W) : SqliteHost θ W := ⟨fun _ => .new [], [], world, []⟩

/-! ### Calls of SQLite -/

/-- A call that changes the state of SQLite. -/
def call {α : Type} (f : W → α × W) : SqliteM θ W α := fun s =>
  .ok ((f s.world).1, { s with world := (f s.world).2 })

/-- `sqlite3_open_v2`, recorded. -/
def openV2 (t : θ) (path : List UInt8) : SqliteM θ W (Int32 × ℕ) := do
  let (err, connection) ← call fun w => sqlite.openV2 w path
  modify fun s => { s with calls := s.calls ++ [.openV2 t path err connection] }
  return (err, connection)

/-- `sqlite3_prepare_v2`, recorded.  The length is passed as an `i32`. -/
def prepareV2 (t : θ) (connection : ℕ) (query : RocStr) : SqliteM θ W (Int32 × ℕ) := do
  let (err, stmt) ← call fun w =>
    sqlite.prepareV2 w connection query.bytes (.ofNat query.bytes.length)
  modify fun s => { s with calls := s.calls ++ [.prepareV2 t connection query.bytes err stmt] }
  return (err, stmt)

/-- `sqlite3_errmsg`, recorded. -/
def errmsg (t : θ) (connection : ℕ) : SqliteM θ W (Option (List UInt8)) := do
  modify fun s => { s with calls := s.calls ++ [.errmsg t connection] }
  return sqlite.errmsg (← get).world connection

/-! ### Connections -/

/-- `SQLITE_CONNECTIONS` of the thread, borrowed. -/
def borrowConnections (t : θ) : SqliteM θ W (List (List UInt8 × ℕ)) := do
  let cell ← ((← get).connections t).borrow
  modify fun s => { s with connections := Function.update s.connections t cell }
  return cell.value

/-- The borrow ends. -/
def releaseConnections (t : θ) : SqliteM θ W Unit :=
  modify fun s =>
    { s with connections := Function.update s.connections t (s.connections t).dropRef }

/-- `connections.borrow_mut().push(..)` -/
def pushConnection (t : θ) (entry : List UInt8 × ℕ) : SqliteM θ W Unit := do
  let cell ← ((← get).connections t).borrowMut
  let cell := cell.dropRefMut (cell.value ++ [entry])
  modify fun s => { s with connections := Function.update s.connections t cell }

/-- `err_from_sqlite_conn` -/
def errFromConn (t : θ) (conn : ℕ) (code : Int32) : SqliteM θ W SqliteError := do
  let errmsg ← errmsg sqlite t conn
  return errFromSqliteConn code (sqlite.errstr code) errmsg

/-- `get_connection` -/
def getConnection (t : θ) (path : RocStr) : SqliteM θ W (Except SqliteError ℕ) := do
  -- borrowed for the whole search, and no longer when the connection is pushed
  let connections ← borrowConnections t
  let found := connections.lookup path.bytes
  releaseConnections t
  match found with
  | some connection => return .ok connection
  | none =>
    let path ← cStringNew path
    let (err, connection) ← openV2 sqlite t path
    if err ≠ sqliteOk then
      return .error (← errFromConn sqlite t connection err)
    else
      pushConnection t (path, connection)
      return .ok connection

/-- `roc_err_from_sqlite_errcode` -/
def rocErrFromErrcode (t : θ) (stmt : SqliteStatement θ) (code : Int32) :
    SqliteM θ W SqliteError := do
  match ← getConnection sqlite t stmt.dbPath with
  | .ok conn =>
    let errmsg ← errmsg sqlite t conn
    return rocErrFromSqliteErrcode code (sqlite.errstr code) true errmsg
  | .error _ => return rocErrFromSqliteErrcode code (sqlite.errstr code) false none

/-! ### Statements -/

/-- `thread_local_prepare`, with the statement as it is afterwards. -/
def threadLocalPrepare (t : θ) (stmt : SqliteStatement θ) :
    SqliteM θ W (Except SqliteError ℕ × SqliteStatement θ) := do
  match ← getConnection sqlite t stmt.dbPath with
  | .error err => return (.error err, stmt)
  | .ok connection =>
    -- `get_or_try`
    match stmt.stmt.lookup t with
    | some unsafeStmt => return (.ok unsafeStmt, stmt)
    | none =>
      let (err, unsafeStmt) ← prepareV2 sqlite t connection stmt.query
      if err ≠ sqliteOk then
        return (.error (← errFromConn sqlite t connection err), stmt)
      else
        return (.ok unsafeStmt, { stmt with stmt := stmt.stmt ++ [(t, unsafeStmt)] })

/-- `SqliteStatement::drop` -/
def dropStatement (stmt : SqliteStatement θ) : SqliteM θ W Unit :=
  call fun w => ((), stmt.stmt.foldl (fun w entry => sqlite.finalize w entry.2) w)

/-- `prepare`.  `room` tells whether `alloc_for` finds room in the heap. -/
def prepare (t : θ) (dbPath query : RocStr) (room : Bool) : SqliteM θ W (Except SqliteError ℕ) := do
  match ← threadLocalPrepare sqlite t ⟨dbPath, query, []⟩ with
  | (.error err, _) => return .error err
  | (.ok _, stmt) =>
    if room then
      let box := (← get).statements.length
      modify fun s => { s with statements := s.statements ++ [stmt] }
      return .ok box
    else
      dropStatement sqlite stmt
      return .error prepareNomem

/-- `box_to_resource` and `thread_local_prepare(stmt).expect(..)`, with which every other function
begins.  A box that `prepare` has not answered has no meaning. -/
def localStmt (t : θ) (box : ℕ) : SqliteM θ W (SqliteStatement θ × ℕ) := do
  match (← get).statements[box]? with
  | none => throw .undefined
  | some stmt =>
    let (local?, stmt) ← threadLocalPrepare sqlite t stmt
    modify fun s => { s with statements := s.statements.set box stmt }
    match local? with
    | .ok unsafeStmt => return (stmt, unsafeStmt)
    | .error _ => throw .expect

/-! ### Bindings -/

/-- `SqliteBindings`. -/
structure SqliteBindings where
  name : RocStr
  value : SqliteValue
deriving DecidableEq

/-- The `sqlite3_bind_..` of a value. -/
def bindValue (w : W) (stmt : ℕ) (index : Int32) : SqliteValue → Int32 × W
  | .integer val => sqlite.bindInt64 w stmt index val
  | .real bits => sqlite.bindDouble w stmt index bits
  | .string val => sqlite.bindText64 w stmt index val.bytes
  | .bytes val => sqlite.bindBlob64 w stmt index val
  | .null => sqlite.bindNull w stmt index

/-- The loop of `bind`. -/
def bindLoop (t : θ) (stmt : SqliteStatement θ) (unsafeStmt : ℕ) :
    List SqliteBindings → SqliteM θ W (Except SqliteError Unit)
  | [] => return .ok ()
  | binding :: bindings => do
    let name ← cStringNew binding.name
    let index := sqlite.bindParameterIndex (← get).world unsafeStmt name
    if index = 0 then
      return .error (bindUnknownParameter (cStringDebug name))
    else
      let err ← call fun w => bindValue sqlite w unsafeStmt index binding.value
      if err ≠ sqliteOk then
        return .error (← rocErrFromErrcode sqlite t stmt err)
      else
        bindLoop t stmt unsafeStmt bindings

/-- `bind` -/
def bind (t : θ) (box : ℕ) (bindings : List SqliteBindings) :
    SqliteM θ W (Except SqliteError Unit) := do
  let (stmt, unsafeStmt) ← localStmt sqlite t box
  -- A text without SQL is prepared as null, which `sqlite3_clear_bindings` must not be given.
  if unsafeStmt = 0 then throw .undefined
  else
    let err ← call fun w => sqlite.clearBindings w unsafeStmt
    if err ≠ sqliteOk then
      return .error (← rocErrFromErrcode sqlite t stmt err)
    else
      bindLoop sqlite t stmt unsafeStmt bindings

/-! ### Rows -/

/-- The names that `columns` reads.  `CStr::from_ptr` must not be given a null pointer. -/
def columnNames (w : W) (stmt : ℕ) : Except Fault (List (List UInt8)) :=
  let count := (sqlite.columnCount w stmt).toInt64.toUInt64.toNat
  (List.range count).mapM fun i =>
    match sqlite.columnName w stmt (.ofNat i) with
    | some colName => .ok colName
    | none => .error .undefined

/-- `columns` -/
def columns (t : θ) (box : ℕ) : SqliteM θ W (List RocStr) := do
  let (_, unsafeStmt) ← localStmt sqlite t box
  let names ← columnNames sqlite (← get).world unsafeStmt
  return BasicCli.columns names

/-- The `match` of `column_value`. -/
def readColumn (w : W) (stmt : ℕ) (i : Int32) : Except Fault SqliteValue :=
  let type := sqlite.columnType w stmt i
  if type = sqliteInteger then .ok (.integer (sqlite.columnInt64 w stmt i))
  else if type = sqliteFloat then .ok (.real (sqlite.columnDouble w stmt i))
  else if type = sqliteText then do
    let text := sqlite.columnText w stmt i
    let len := sqlite.columnBytes w stmt i
    let slice ← fromRawParts text len.toInt64.toUInt64
    return .string (.fromUtf8Unchecked slice.bytes)
  else if type = sqliteBlob then do
    let blob := sqlite.columnBlob w stmt i
    let len := sqlite.columnBytes w stmt i
    let slice ← fromRawParts blob len.toInt64.toUInt64
    return .bytes slice.bytes
  else if type = sqliteNull then .ok .null
  else .error .unreachable

/-- `column_value` -/
def columnValue (t : θ) (box : ℕ) (i : UInt64) : SqliteM θ W (Except SqliteError SqliteValue) := do
  let (_, unsafeStmt) ← localStmt sqlite t box
  let w := (← get).world
  let count := (sqlite.columnCount w unsafeStmt).toInt64.toUInt64
  if i ≥ count then
    return .error ⟨sqliteError,
      .fromStr ("column index out of range: " ++ toString i ++ " of " ++ toString count)⟩
  else
    let value ← readColumn sqlite w unsafeStmt i.toUInt32.toInt32
    return .ok value

/-! ### Execution -/

/-- `SqliteState`. -/
inductive SqliteState
  | done
  | row
deriving DecidableEq, Repr

/-- `step` -/
def step (t : θ) (box : ℕ) : SqliteM θ W (Except SqliteError SqliteState) := do
  let (stmt, unsafeStmt) ← localStmt sqlite t box
  let err ← call fun w => sqlite.step w unsafeStmt
  if err = sqliteRow then return .ok .row
  else if err = sqliteDone then return .ok .done
  else return .error (← rocErrFromErrcode sqlite t stmt err)

/-- `reset` -/
def reset (t : θ) (box : ℕ) : SqliteM θ W (Except SqliteError Unit) := do
  let (stmt, unsafeStmt) ← localStmt sqlite t box
  let err ← call fun w => sqlite.reset w unsafeStmt
  if err ≠ sqliteOk then
    return .error (← rocErrFromErrcode sqlite t stmt err)
  else return .ok ()

/-! ### Programs -/

/-- What a program calls. -/
inductive SqliteAction
  | prepare (dbPath query : RocStr) (room : Bool)
  | bind (box : ℕ) (bindings : List SqliteBindings)
  | columns (box : ℕ)
  | columnValue (box : ℕ) (i : UInt64)
  | step (box : ℕ)
  | reset (box : ℕ)

/-- What it is answered. -/
inductive SqliteAnswer
  | prepare (answer : Except SqliteError ℕ)
  | bind (answer : Except SqliteError Unit)
  | columns (answer : List RocStr)
  | columnValue (answer : Except SqliteError SqliteValue)
  | step (answer : Except SqliteError SqliteState)
  | reset (answer : Except SqliteError Unit)
deriving DecidableEq

/-- One call by a thread. -/
def act : θ × SqliteAction → SqliteM θ W SqliteAnswer
  | (t, .prepare dbPath query room) => .prepare <$> prepare sqlite t dbPath query room
  | (t, .bind box bindings) => .bind <$> bind sqlite t box bindings
  | (t, .columns box) => .columns <$> columns sqlite t box
  | (t, .columnValue box i) => .columnValue <$> columnValue sqlite t box i
  | (t, .step box) => .step <$> step sqlite t box
  | (t, .reset box) => .reset <$> reset sqlite t box

/-- Calls by threads, one after the other. -/
def runCalls : List (θ × SqliteAction) → SqliteHost θ W →
    Except Fault (List SqliteAnswer × SqliteHost θ W) :=
  Run.run (act sqlite)

end

end BasicCli.Sqlite
