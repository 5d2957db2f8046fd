import BasicCli.Sqlite.Basic

/-!
# The C interface of SQLite

The functions of `libsqlite3_sys` that `crates/roc_sqlite` calls.  The library is not part of the
repository: `Sqlite3` holds its functions, over a state `W` that stands for everything behind them
(open databases, statements, files, other processes).  Handles are addresses.
-/

namespace BasicCli

/-! ### Result codes and types -/

/-- `SQLITE_OK`. -/
def sqliteOk : Int32 := 0

/-- `SQLITE_ROW`. -/
def sqliteRow : Int32 := 100

/-- `SQLITE_DONE`. -/
def sqliteDone : Int32 := 101

/-- `SQLITE_INTEGER`. -/
def sqliteInteger : Int32 := 1

/-- `SQLITE_FLOAT`. -/
def sqliteFloat : Int32 := 2

/-- `SQLITE_TEXT`. -/
def sqliteText : Int32 := 3

/-- `SQLITE_BLOB`. -/
def sqliteBlob : Int32 := 4

/-- `SQLITE_NULL`. -/
def sqliteNull : Int32 := 5

/-! ### Pointers -/

/-- A pointer that C answers: its address and the bytes that can be read from there. -/
structure CPtr where
  addr : ℕ
  bytes : List UInt8

/-- A slice `&[u8]`.  Its start is never null. -/
structure Slice where
  start : ℕ
  bytes : List UInt8
  start_ne : start ≠ 0

/-- Why a host function does not return: a panic, or something that has no defined meaning. -/
inductive Fault
  /-- `expect("Prepare already succeeded in another thread. Should not fail here")` -/
  | expect
  /-- A `RefCell` is borrowed while it is borrowed mutably, or the other way around. -/
  | alreadyBorrowed
  /-- `CString::new(..).unwrap()` on bytes that contain NUL. -/
  | nulError
  /-- `unreachable!()` -/
  | unreachable
  | undefined
deriving DecidableEq, Repr

/-- `std::slice::from_raw_parts`, which must not be given a null pointer, even with `len = 0`. -/
def fromRawParts (data : CPtr) (len : UInt64) : Except Fault Slice :=
  if h : data.addr = 0 then .error .undefined
  else if data.bytes.length < len.toNat then .error .undefined
  else .ok ⟨data.addr, data.bytes.take len.toNat, h⟩

/-- `CString::new(..).unwrap()`. -/
def cStringNew (s : RocStr) : Except Fault (List UInt8) :=
  if 0 ∈ s.bytes then .error .nulError else .ok s.bytes

/-- `u8::escape_ascii`. -/
def escapeAscii (b : UInt8) : List Char :=
  if b = 9 then ['\\', 't']
  else if b = 13 then ['\\', 'r']
  else if b = 10 then ['\\', 'n']
  else if b = 39 then ['\\', '\'']
  else if b = 34 then ['\\', '"']
  else if b = 92 then ['\\', '\\']
  else if 32 ≤ b ∧ b < 127 then [.ofNat b.toNat]
  else ['\\', 'x', Nat.digitChar (b.toNat / 16), Nat.digitChar (b.toNat % 16)]

/-- A `CString` as `{:?}` prints it. -/
def cStringDebug (name : List UInt8) : String :=
  .ofList ('"' :: name.flatMap escapeAscii ++ ['"'])

/-! ### The functions -/

/-- The functions of SQLite.  Those that may change something answer the new state. -/
structure Sqlite3 (W : Type) where
  /-- `sqlite3_open_v2` with the host's flags: the result code and the handle, which there may be
  even if opening fails. -/
  openV2 : W → List UInt8 → (Int32 × ℕ) × W
  /-- `sqlite3_prepare_v2` of a connection, a text and its length: the result code and the
  statement. -/
  prepareV2 : W → ℕ → List UInt8 → Int32 → (Int32 × ℕ) × W
  /-- `sqlite3_finalize` -/
  finalize : W → ℕ → W
  /-- `sqlite3_errmsg` of a connection, which may be null. -/
  errmsg : W → ℕ → Option (List UInt8)
  /-- `sqlite3_errstr` -/
  errstr : Int32 → List UInt8
  /-- `sqlite3_clear_bindings` -/
  clearBindings : W → ℕ → Int32 × W
  /-- `sqlite3_bind_parameter_index` -/
  bindParameterIndex : W → ℕ → List UInt8 → Int32
  /-- `sqlite3_bind_int64` -/
  bindInt64 : W → ℕ → Int32 → Int64 → Int32 × W
  /-- `sqlite3_bind_double`, with the bits of the `f64`. -/
  bindDouble : W → ℕ → Int32 → UInt64 → Int32 × W
  /-- `sqlite3_bind_text64` with the bytes of a `&str`, which are copied. -/
  bindText64 : W → ℕ → Int32 → List UInt8 → Int32 × W
  /-- `sqlite3_bind_blob64` with the bytes of a `&[u8]`, which are copied.  The pointer is not null,
  as that of no slice is. -/
  bindBlob64 : W → ℕ → Int32 → List UInt8 → Int32 × W
  /-- `sqlite3_bind_null` -/
  bindNull : W → ℕ → Int32 → Int32 × W
  /-- `sqlite3_column_count` -/
  columnCount : W → ℕ → Int32
  /-- `sqlite3_column_name`, which may be null. -/
  columnName : W → ℕ → Int32 → Option (List UInt8)
  /-- `sqlite3_column_type` -/
  columnType : W → ℕ → Int32 → Int32
  /-- `sqlite3_column_int64` -/
  columnInt64 : W → ℕ → Int32 → Int64
  /-- `sqlite3_column_double`, as the bits of the `f64`. -/
  columnDouble : W → ℕ → Int32 → UInt64
  /-- `sqlite3_column_text` -/
  columnText : W → ℕ → Int32 → CPtr
  /-- `sqlite3_column_blob` -/
  columnBlob : W → ℕ → Int32 → CPtr
  /-- `sqlite3_column_bytes` -/
  columnBytes : W → ℕ → Int32 → Int32
  /-- `sqlite3_step` -/
  step : W → ℕ → Int32 × W
  /-- `sqlite3_reset` -/
  reset : W → ℕ → Int32 × W

end BasicCli
