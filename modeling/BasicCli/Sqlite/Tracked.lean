import BasicCli.Sqlite.Reference
import BasicCli.Sqlite.Release

/-!
# A small SQLite that finalises

The small SQLite, together with the statements that have not been finalised.
-/

namespace BasicCli.Sqlite

/-! ### Statements are not lost -/

namespace RefWorld

variable {w : RefWorld} {p : ℕ}

theorem length_setStmt {stmt : RefStmt} : (w.setStmt p stmt).stmts.length = w.stmts.length :=
  List.length_set

theorem length_clearBindings : (w.clearBindings p).2.stmts.length = w.stmts.length := by
  rw [clearBindings]
  split
  · exact length_setStmt
  · rfl

theorem length_bind {i : Int32} {v : SqliteColumn} :
    (w.bind p i v).2.stmts.length = w.stmts.length := by
  rw [bind]
  split
  · split_ifs
    · exact length_setStmt
    · rfl
    · rfl
  · rfl

theorem length_step : (w.step p).2.stmts.length = w.stmts.length := by
  rw [step]
  split
  · rfl
  · rfl
  · exact length_setStmt
  · exact length_setStmt
  · rfl

theorem length_reset : (w.reset p).2.stmts.length = w.stmts.length := by
  rw [reset]
  split
  · exact length_setStmt
  · rfl

end RefWorld

/-! ### The statements that there are -/

/-- The small SQLite and the statements that have been prepared and not finalised. -/
structure TrackedWorld where
  world : RefWorld
  stmts : List ℕ
  bound : ∀ p ∈ stmts, p ≠ 0 ∧ p ≤ world.stmts.length

namespace TrackedWorld

/-- Nothing is open. -/
def empty : TrackedWorld := ⟨.empty, [], fun _ h => absurd h List.not_mem_nil⟩

/-- The statements that there are. -/
def live (w : TrackedWorld) : Set ℕ := {p | p ∈ w.stmts}

/-- The small SQLite has done something, and has the same statements. -/
def withWorld (w : TrackedWorld) (world : RefWorld)
    (h : world.stmts.length = w.world.stmts.length) : TrackedWorld :=
  ⟨world, w.stmts, fun p hp => by rw [h]; exact w.bound p hp⟩

/-- `sqlite3_open_v2` -/
def openV2 (w : TrackedWorld) (path : List UInt8) : (Int32 × ℕ) × TrackedWorld :=
  ((w.world.openV2 path).1, w.withWorld (w.world.openV2 path).2 rfl)

/-- `sqlite3_prepare_v2` -/
def prepareV2 (w : TrackedWorld) (connection : ℕ) (query : List UInt8) :
    (Int32 × ℕ) × TrackedWorld :=
  match w.world.parse connection query with
  | some stmt =>
    ((sqliteOk, w.world.stmts.length + 1),
      ⟨{ w.world with stmts := w.world.stmts ++ [stmt] }, (w.world.stmts.length + 1) :: w.stmts,
        by
          intro p hp
          rw [List.length_append, List.length_singleton]
          rcases List.mem_cons.mp hp with rfl | hp
          · exact ⟨Nat.succ_ne_zero _, le_rfl⟩
          · exact ⟨(w.bound p hp).1, Nat.le_succ_of_le (w.bound p hp).2⟩⟩)
  | none => ((1, 0), w.withWorld (w.world.fail 1).2 rfl)

/-- `sqlite3_finalize` -/
def finalize (w : TrackedWorld) (p : ℕ) : TrackedWorld :=
  ⟨w.world, w.stmts.filter (· ≠ p), fun q hq => w.bound q (List.mem_filter.mp hq).1⟩

/-- `sqlite3_bind_..` -/
def bind (w : TrackedWorld) (p : ℕ) (i : Int32) (v : SqliteColumn) : Int32 × TrackedWorld :=
  ((w.world.bind p i v).1, w.withWorld (w.world.bind p i v).2 RefWorld.length_bind)

end TrackedWorld

/-- The functions of the small SQLite. -/
def trackedSqlite : Sqlite3 TrackedWorld where
  openV2 := TrackedWorld.openV2
  prepareV2 w connection query _ := w.prepareV2 connection query
  finalize := TrackedWorld.finalize
  errmsg w p := refSqlite.errmsg w.world p
  errstr := refSqlite.errstr
  clearBindings w p :=
    ((w.world.clearBindings p).1,
      w.withWorld (w.world.clearBindings p).2 RefWorld.length_clearBindings)
  bindParameterIndex w := refSqlite.bindParameterIndex w.world
  bindInt64 w p i val := w.bind p i (.integer val)
  bindDouble w p i bits := w.bind p i (if isNan bits then .null else .float bits)
  bindText64 w p i bytes := w.bind p i (.text bytes)
  bindBlob64 w p i bytes := w.bind p i (.blob bytes)
  bindNull w p i := w.bind p i .null
  columnCount w := refSqlite.columnCount w.world
  columnName w := refSqlite.columnName w.world
  columnType w := refSqlite.columnType w.world
  columnInt64 w := refSqlite.columnInt64 w.world
  columnDouble w := refSqlite.columnDouble w.world
  columnText w := refSqlite.columnText w.world
  columnBlob w := refSqlite.columnBlob w.world
  columnBytes w := refSqlite.columnBytes w.world
  step w p := ((w.world.step p).1, w.withWorld (w.world.step p).2 RefWorld.length_step)
  reset w p := ((w.world.reset p).1, w.withWorld (w.world.reset p).2 RefWorld.length_reset)

/-- A small SQLite that notices when it is given a statement that there is not. -/
def strictSqlite : Sqlite3 TrackedWorld :=
  { trackedSqlite with
    finalize := fun w p => if p = 0 ∨ p ∈ w.stmts then w.finalize p else w
    columnCount := fun w p => if p = 0 ∨ p ∈ w.stmts then trackedSqlite.columnCount w p else 0
    step := fun w p => if p = 0 ∨ p ∈ w.stmts then trackedSqlite.step w p else (21, w)
    reset := fun w p => if p = 0 ∨ p ∈ w.stmts then trackedSqlite.reset w p else (21, w) }

/-- Two threads use the first statement, a second one is prepared, and the first is deallocated. -/
def refRelease : List (HeapAction ℕ) :=
  [.call 0 (refPrepare "SELECT :v"), .call 1 (.step 0), .call 0 (refPrepare "SELECT :v"),
    .dealloc 0]

end BasicCli.Sqlite
