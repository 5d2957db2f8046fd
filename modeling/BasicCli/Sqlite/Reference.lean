import BasicCli.Sqlite.Laws
import Mathlib.Algebra.Group.Nat.Defs

/-!
# A small SQLite

In-memory databases with three statements, one of which has a parameter.  It shows that the laws can
be met, and is small enough to run.
-/

namespace BasicCli.Sqlite

/-- The number of bytes of a value. -/
def byteSize : SqliteColumn → ℕ
  | .text bytes | .blob bytes => bytes.length
  | .integer _ | .float _ | .null => 0

/-- A value that is not too long for SQLite. -/
abbrev RefValue := { c : SqliteColumn // byteSize c < 2 ^ 31 }

/-- A statement that has been prepared. -/
inductive RefStmt
  /-- `CREATE TABLE t (x)`, on a connection -/
  | createTable (connection : ℕ)
  /-- `SELECT x FROM t` -/
  | selectTable
  /-- `SELECT :v`, with what is bound and the current row -/
  | selectParam (param : RefValue) (row : Option RefValue)

/-- The databases, one of each connection, with whether there is the table, the statements and the
code of the last call that failed.  Handles count from 1. -/
structure RefWorld where
  tables : List Bool
  stmts : List RefStmt
  code : Int32

namespace RefWorld

/-- Nothing is open. -/
def empty : RefWorld := ⟨[], [], sqliteOk⟩

/-- A call that fails. -/
def fail (w : RefWorld) (code : Int32) : Int32 × RefWorld := (code, { w with code })

/-- `sqlite3_open_v2`, which knows in-memory databases only. -/
def openV2 (w : RefWorld) (path : List UInt8) : (Int32 × ℕ) × RefWorld :=
  let err := if path = strBytes ":memory:" then sqliteOk else 14
  ((err, w.tables.length + 1), { w with tables := w.tables ++ [false], code := err })

/-- The statement of a text on a connection, if there is one. -/
def parse (w : RefWorld) (connection : ℕ) (query : List UInt8) : Option RefStmt :=
  if query = strBytes "CREATE TABLE t (x)" then some (.createTable connection)
  else if query = strBytes "SELECT x FROM t" then
    if w.tables[connection - 1]? = some true then some .selectTable else none
  else if query = strBytes "SELECT :v" then some (.selectParam ⟨.null, by decide⟩ none)
  else none

/-- `sqlite3_prepare_v2` -/
def prepareV2 (w : RefWorld) (connection : ℕ) (query : List UInt8) : (Int32 × ℕ) × RefWorld :=
  match w.parse connection query with
  | some stmt => ((sqliteOk, w.stmts.length + 1), { w with stmts := w.stmts ++ [stmt] })
  | none => ((1, 0), (w.fail 1).2)

/-- The statement of a handle. -/
def stmt? (w : RefWorld) (p : ℕ) : Option RefStmt := if p = 0 then none else w.stmts[p - 1]?

/-- Another statement of the handle. -/
def setStmt (w : RefWorld) (p : ℕ) (stmt : RefStmt) : RefWorld :=
  { w with stmts := w.stmts.set (p - 1) stmt }

/-- `sqlite3_clear_bindings` -/
def clearBindings (w : RefWorld) (p : ℕ) : Int32 × RefWorld :=
  match w.stmt? p with
  | some (.selectParam _ row) => (sqliteOk, w.setStmt p (.selectParam ⟨.null, by decide⟩ row))
  | _ => (sqliteOk, w)

/-- `sqlite3_bind_..` -/
def bind (w : RefWorld) (p : ℕ) (i : Int32) (v : SqliteColumn) : Int32 × RefWorld :=
  match w.stmt? p with
  | some (.selectParam _ none) =>
    if i = 1 then
      if h : byteSize v < 2 ^ 31 then (sqliteOk, w.setStmt p (.selectParam ⟨v, h⟩ none))
      else w.fail 18
    else w.fail 25
  | _ => w.fail 21

/-- `sqlite3_bind_parameter_index` -/
def bindParameterIndex (w : RefWorld) (p : ℕ) (name : List UInt8) : Int32 :=
  match w.stmt? p with
  | some (.selectParam _ _) => if name = strBytes ":v" then 1 else 0
  | _ => 0

/-- `sqlite3_step` -/
def step (w : RefWorld) (p : ℕ) : Int32 × RefWorld :=
  match w.stmt? p with
  | some (.createTable connection) =>
    (sqliteDone, { w with tables := w.tables.set (connection - 1) true })
  | some .selectTable => (sqliteDone, w)
  | some (.selectParam param none) => (sqliteRow, w.setStmt p (.selectParam param (some param)))
  | some (.selectParam param (some _)) => (sqliteDone, w.setStmt p (.selectParam param none))
  | none => w.fail 21

/-- `sqlite3_reset` -/
def reset (w : RefWorld) (p : ℕ) : Int32 × RefWorld :=
  match w.stmt? p with
  | some (.selectParam param _) => (sqliteOk, w.setStmt p (.selectParam param none))
  | _ => (sqliteOk, w)

/-- `sqlite3_column_count` -/
def columnCount (w : RefWorld) (p : ℕ) : Int32 :=
  match w.stmt? p with
  | some .selectTable | some (.selectParam _ _) => 1
  | _ => 0

/-- The current row. -/
def row (w : RefWorld) (p : ℕ) : Option (List SqliteColumn) :=
  match w.stmt? p with
  | some (.selectParam _ (some value)) => some [value.1]
  | _ => none

/-- The column of the current row. -/
def column (w : RefWorld) (p : ℕ) (i : Int32) : RefValue :=
  match w.stmt? p with
  | some (.selectParam _ (some value)) => if i = 0 then value else ⟨.null, by decide⟩
  | _ => ⟨.null, by decide⟩

end RefWorld

/-- The type that `sqlite3_column_type` tells. -/
def typeOf : SqliteColumn → Int32
  | .integer _ => sqliteInteger
  | .float _ => sqliteFloat
  | .text _ => sqliteText
  | .blob _ => sqliteBlob
  | .null => sqliteNull

/-- A call that prepares a text on an in-memory database. -/
def refPrepare (query : String) : SqliteAction :=
  .prepare (.fromStr ":memory:") (.fromStr query) true

/-- `sqlite3_errstr` -/
def errstr (code : Int32) : List UInt8 :=
  strBytes (([(1, "SQL logic error"), (14, "unable to open database file"),
    (18, "string or blob too big"), (21, "bad parameter or other API misuse"),
    (25, "column index out of range")].lookup code).getD "unknown error")

/-- The functions of the small SQLite. -/
def refSqlite : Sqlite3 RefWorld where
  openV2 := RefWorld.openV2
  prepareV2 w connection query _ := w.prepareV2 connection query
  finalize w _ := w
  errmsg w _ := some (errstr w.code)
  errstr := errstr
  clearBindings := RefWorld.clearBindings
  bindParameterIndex := RefWorld.bindParameterIndex
  bindInt64 w p i val := w.bind p i (.integer val)
  bindDouble w p i bits := w.bind p i (if isNan bits then .null else .float bits)
  bindText64 w p i bytes := w.bind p i (.text bytes)
  bindBlob64 w p i bytes := w.bind p i (.blob bytes)
  bindNull w p i := w.bind p i .null
  columnCount := RefWorld.columnCount
  columnName w p i :=
    match w.stmt? p with
    | some .selectTable => if i = 0 then some (strBytes "x") else none
    | some (.selectParam _ _) => if i = 0 then some (strBytes ":v") else none
    | _ => none
  columnType w p i := typeOf (w.column p i).1
  columnInt64 w p i :=
    match (w.column p i).1 with
    | .integer val => val
    | _ => 0
  columnDouble w p i :=
    match (w.column p i).1 with
    | .float bits => bits
    | _ => 0
  columnText w p i :=
    match (w.column p i).1 with
    | .text bytes => ⟨4096, bytes ++ [0]⟩
    | _ => ⟨0, []⟩
  columnBlob w p i :=
    match (w.column p i).1 with
    | .blob bytes => if bytes = [] then ⟨0, []⟩ else ⟨4096, bytes⟩
    | _ => ⟨0, []⟩
  columnBytes w p i := .ofNat (byteSize (w.column p i).1)
  step := RefWorld.step
  reset := RefWorld.reset

end BasicCli.Sqlite
