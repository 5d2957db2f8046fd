import BasicCli.RocStr.Basic

/-!
# SQLite results

What `crates/roc_sqlite` makes of the answers of SQLite: values, column names and errors.
-/

namespace BasicCli

/-- `SqliteValue`.  A real is given by the bits of its `f64`. -/
inductive SqliteValue
  | bytes (val : List UInt8)
  | integer (val : Int64)
  | null
  | real (bits : UInt64)
  | string (val : RocStr)
deriving DecidableEq

/-- `SqliteError`. -/
structure SqliteError where
  code : Int64
  message : RocStr
deriving DecidableEq

/-- A column of the current row: what `sqlite3_column_type` says and the function for that type
answers. -/
inductive SqliteColumn
  | integer (val : Int64)
  | float (bits : UInt64)
  | text (bytes : List UInt8)
  | blob (bytes : List UInt8)
  | null
deriving DecidableEq

/-- `SQLITE_ERROR`. -/
def sqliteError : Int64 := 1

/-- `SQLITE_NOMEM`. -/
def sqliteNomem : Int64 := 7

/-- `columns`, with the C strings that `sqlite3_column_name` answers. -/
def columns (names : List (List UInt8)) : List RocStr :=
  names.map fun colName => .fromStr (Utf8.fromUtf8Lossy colName)

/-- `column_value`, with the number of columns and the columns of the row. -/
def columnValue (count : UInt64) (column : Int32 → SqliteColumn) (i : UInt64) :
    Except SqliteError SqliteValue :=
  if i ≥ count then
    .error ⟨sqliteError,
      .fromStr ("column index out of range: " ++ toString i ++ " of " ++ toString count)⟩
  else
    match column i.toUInt32.toInt32 with
    | .integer val => .ok (.integer val)
    | .float bits => .ok (.real bits)
    -- SQLite does not promise that a text is UTF-8, and neither is it checked here.
    | .text bytes => .ok (.string (.fromUtf8Unchecked bytes))
    | .blob bytes => .ok (.bytes bytes)
    | .null => .ok .null

/-- `err_from_sqlite_conn`, with the C strings of `sqlite3_errstr` and `sqlite3_errmsg`; the latter
may be null. -/
def errFromSqliteConn (code : Int32) (errstr : List UInt8) (errmsg : Option (List UInt8)) :
    SqliteError :=
  ⟨code.toInt64, .fromStr (Utf8.fromUtf8Lossy (errmsg.getD errstr))⟩

/-- `roc_err_from_sqlite_errcode`.  Without a connection there is no `sqlite3_errmsg` to ask. -/
def rocErrFromSqliteErrcode (code : Int32) (errstr : List UInt8) (conn : Bool)
    (errmsg : Option (List UInt8)) : SqliteError :=
  ⟨code.toInt64,
    .fromStr (Utf8.fromUtf8Lossy (if conn then errmsg.getD errstr else errstr))⟩

/-- The error of `prepare` when there is no room for the statement. -/
def prepareNomem : SqliteError :=
  ⟨sqliteNomem, .fromStr "Ran out of memory allocating space for statement"⟩

/-- The error of `bind` for a name that is no parameter of the statement, with what `{:?}` prints
for the name. -/
def bindUnknownParameter (nameDebug : String) : SqliteError :=
  ⟨sqliteError, .fromStr ("unknown paramater: " ++ nameDebug)⟩

end BasicCli
