import BasicCli.Sqlite.Statement
import Mathlib.Data.Set.Insert

/-!
# What SQLite documents

* `ParameterLaws`: a parameter holds what has last been bound to it.
* `ColumnLaws`: the column of a row is read as what it holds.
* `LifetimeLaws`: a statement is made by preparing it and goes when it is finalised.
-/

namespace BasicCli.Sqlite

variable {W : Type}

/-- `f64::is_nan`, of the bits. -/
def isNan (bits : UInt64) : Bool :=
  bits &&& 0x7FF0000000000000 = 0x7FF0000000000000 ∧ bits &&& 0x000FFFFFFFFFFFFF ≠ 0

/-! ### Parameters -/

/-- What is known of the parameters of the statements. -/
structure Parameters (W : Type) where
  /-- What a parameter holds. -/
  param : W → ℕ → Int32 → SqliteColumn
  /-- The name of a parameter that has one. -/
  name : W → ℕ → Int32 → Option (List UInt8)
  /-- The statement has been stepped and has neither finished nor been reset. -/
  active : W → ℕ → Prop

/-- A `sqlite3_bind_..` is an error on an active statement, and otherwise sets one parameter unless
it fails. -/
structure Parameters.Binds (ps : Parameters W) (w : W) (p : ℕ) (i : Int32) (v : SqliteColumn)
    (r : Int32 × W) : Prop where
  active : ps.active w p → r.1 ≠ sqliteOk
  param : ¬ ps.active w p → r.1 = sqliteOk → ps.param r.2 p = Function.update (ps.param w p) i v
  name : ps.name r.2 p = ps.name w p

/-- What SQLite documents of parameters. -/
structure ParameterLaws (sqlite : Sqlite3 W) extends Parameters W where
  /-- A name is that of one parameter at most; 0 is the answer to a name that is none. -/
  index_eq : ∀ w p n i, i ≠ 0 → (sqlite.bindParameterIndex w p n = i ↔ name w p i = some n)
  clear_param : ∀ w p i, param (sqlite.clearBindings w p).2 p i = .null
  clear_name : ∀ w p, name (sqlite.clearBindings w p).2 p = name w p
  bindInt64 : ∀ w p i val, toParameters.Binds w p i (.integer val) (sqlite.bindInt64 w p i val)
  /-- NaN is bound as NULL. -/
  bindDouble : ∀ w p i bits,
    toParameters.Binds w p i (if isNan bits then .null else .float bits)
      (sqlite.bindDouble w p i bits)
  bindText64 : ∀ w p i bytes, toParameters.Binds w p i (.text bytes) (sqlite.bindText64 w p i bytes)
  bindBlob64 : ∀ w p i bytes, toParameters.Binds w p i (.blob bytes) (sqlite.bindBlob64 w p i bytes)
  bindNull : ∀ w p i, toParameters.Binds w p i .null (sqlite.bindNull w p i)

/-! ### Columns -/

/-- The functions for the column `i` of the current row answer as is documented for a column that
holds this.  For a zero-length blob there is a null pointer. -/
def ColumnIs (sqlite : Sqlite3 W) (w : W) (p : ℕ) (i : Int32) : SqliteColumn → Prop
  | .integer val => sqlite.columnType w p i = sqliteInteger ∧ sqlite.columnInt64 w p i = val
  | .float bits => sqlite.columnType w p i = sqliteFloat ∧ sqlite.columnDouble w p i = bits
  | .text bytes =>
    sqlite.columnType w p i = sqliteText ∧ (sqlite.columnBytes w p i).toInt = bytes.length ∧
      (sqlite.columnText w p i).addr ≠ 0 ∧ bytes <+: (sqlite.columnText w p i).bytes
  | .blob bytes =>
    sqlite.columnType w p i = sqliteBlob ∧ (sqlite.columnBytes w p i).toInt = bytes.length ∧
      ((sqlite.columnBlob w p i).addr = 0 ↔ bytes = []) ∧
      bytes <+: (sqlite.columnBlob w p i).bytes
  | .null => sqlite.columnType w p i = sqliteNull

/-- What SQLite documents of columns, too. -/
structure ColumnLaws (sqlite : Sqlite3 W) extends ParameterLaws sqlite where
  /-- The current row of a statement. -/
  row : W → ℕ → Option (List SqliteColumn)
  count : ∀ w p values, row w p = some values →
    (sqlite.columnCount w p).toInt = values.length
  column : ∀ w p values (j : ℕ) v, row w p = some values → values[j]? = some v →
    ColumnIs sqlite w p (.ofNat j) v

/-! ### Lifetimes -/

/-- A statement that a function may be given: one that there is, or null, which stands for a text
without SQL.  The functions for parameters are not documented to take null. -/
def Usable (live : W → Set ℕ) (w : W) (p : ℕ) : Prop := p = 0 ∨ p ∈ live w

/-- What SQLite documents of the statements that there are.  Nothing is known of what a function
does with another one. -/
structure LifetimeLaws (sqlite : Sqlite3 W) (live : W → Set ℕ) : Prop where
  null : ∀ w, 0 ∉ live w
  openV2 : ∀ w path, live (sqlite.openV2 w path).2 = live w
  /-- A text without SQL is prepared as null. -/
  prepareV2 : ∀ w connection query len p w',
    sqlite.prepareV2 w connection query len = ((sqliteOk, p), w') →
      p = 0 ∧ live w' = live w ∨ p ∉ live w ∧ live w' = insert p (live w)
  prepareV2_error : ∀ w connection query len err p w', err ≠ sqliteOk →
    sqlite.prepareV2 w connection query len = ((err, p), w') → live w' = live w
  /-- Null is no statement to finalise. -/
  finalize : ∀ w p, Usable live w p → live (sqlite.finalize w p) = live w \ {p}
  clearBindings : ∀ w p, p ∈ live w → live (sqlite.clearBindings w p).2 = live w
  bindInt64 : ∀ w p i val, p ∈ live w → live (sqlite.bindInt64 w p i val).2 = live w
  bindDouble : ∀ w p i bits, p ∈ live w → live (sqlite.bindDouble w p i bits).2 = live w
  bindText64 : ∀ w p i bytes, p ∈ live w → live (sqlite.bindText64 w p i bytes).2 = live w
  bindBlob64 : ∀ w p i bytes, p ∈ live w → live (sqlite.bindBlob64 w p i bytes).2 = live w
  bindNull : ∀ w p i, p ∈ live w → live (sqlite.bindNull w p i).2 = live w
  step : ∀ w p, Usable live w p → live (sqlite.step w p).2 = live w
  reset : ∀ w p, Usable live w p → live (sqlite.reset w p).2 = live w

/-- The two do the same with the statements with `P`. -/
structure AgreeOn (P : W → ℕ → Prop) (sqlite sqlite' : Sqlite3 W) : Prop where
  openV2 : sqlite.openV2 = sqlite'.openV2
  prepareV2 : sqlite.prepareV2 = sqlite'.prepareV2
  errmsg : sqlite.errmsg = sqlite'.errmsg
  errstr : sqlite.errstr = sqlite'.errstr
  finalize : ∀ w p, P w p → sqlite.finalize w p = sqlite'.finalize w p
  clearBindings : ∀ w p, P w p → p ≠ 0 → sqlite.clearBindings w p = sqlite'.clearBindings w p
  bindParameterIndex : ∀ w p, P w p → p ≠ 0 →
    sqlite.bindParameterIndex w p = sqlite'.bindParameterIndex w p
  bindInt64 : ∀ w p, P w p → p ≠ 0 → sqlite.bindInt64 w p = sqlite'.bindInt64 w p
  bindDouble : ∀ w p, P w p → p ≠ 0 → sqlite.bindDouble w p = sqlite'.bindDouble w p
  bindText64 : ∀ w p, P w p → p ≠ 0 → sqlite.bindText64 w p = sqlite'.bindText64 w p
  bindBlob64 : ∀ w p, P w p → p ≠ 0 → sqlite.bindBlob64 w p = sqlite'.bindBlob64 w p
  bindNull : ∀ w p, P w p → p ≠ 0 → sqlite.bindNull w p = sqlite'.bindNull w p
  columnCount : ∀ w p, P w p → sqlite.columnCount w p = sqlite'.columnCount w p
  columnName : ∀ w p, P w p → sqlite.columnName w p = sqlite'.columnName w p
  columnType : ∀ w p, P w p → sqlite.columnType w p = sqlite'.columnType w p
  columnInt64 : ∀ w p, P w p → sqlite.columnInt64 w p = sqlite'.columnInt64 w p
  columnDouble : ∀ w p, P w p → sqlite.columnDouble w p = sqlite'.columnDouble w p
  columnText : ∀ w p, P w p → sqlite.columnText w p = sqlite'.columnText w p
  columnBlob : ∀ w p, P w p → sqlite.columnBlob w p = sqlite'.columnBlob w p
  columnBytes : ∀ w p, P w p → sqlite.columnBytes w p = sqlite'.columnBytes w p
  step : ∀ w p, P w p → sqlite.step w p = sqlite'.step w p
  reset : ∀ w p, P w p → sqlite.reset w p = sqlite'.reset w p

end BasicCli.Sqlite
