import BasicCli.Sqlite.Statement

/-!
# Releasing statements

`roc_dealloc` of `crates/roc_host`: when a program drops its last reference to the box of a
statement, the heap of statements takes the box back and drops the statement.  The heap is not part
of the repository; a box keeps its number here, although its room can be used again.
-/

namespace BasicCli.Sqlite

variable {θ W : Type}

/-- The box that a call is given. -/
def SqliteAction.box? : SqliteAction → Option ℕ
  | .prepare .. => none
  | .bind box _ | .columns box | .columnValue box _ | .step box | .reset box => some box

/-- What a program does: a thread calls, or the last reference to a box goes. -/
inductive HeapAction (θ : Type)
  | call (t : θ) (action : SqliteAction)
  | dealloc (box : ℕ)

/-- The process, with the boxes that have been deallocated. -/
structure StatementHeap (θ W : Type) where
  host : SqliteHost θ W
  dealloced : List ℕ

/-- Nothing has been opened. -/
def StatementHeap.init (world : W) : StatementHeap θ W := ⟨.init world, []⟩

/-- The statements in a box, of SQLite and of all threads.  Null is none. -/
def SqliteStatement.handles (stmt : SqliteStatement θ) : List ℕ :=
  (stmt.stmt.map Prod.snd).filter (· ≠ 0)

/-- What there is in a box. -/
def StatementHeap.handles (s : StatementHeap θ W) (box : ℕ) : List ℕ :=
  if box ∈ s.dealloced then [] else (s.host.statements[box]?.map (·.handles)).getD []

variable [DecidableEq θ] (sqlite : Sqlite3 W)

/-- A call.  A box that has been deallocated has no meaning. -/
def heapCall (t : θ) (action : SqliteAction) :
    StateT (StatementHeap θ W) (Except Fault) SqliteAnswer := fun s =>
  if action.box?.any (· ∈ s.dealloced) then .error .undefined
  else (act sqlite (t, action) s.host).map fun r => (r.1, { s with host := r.2 })

/-- `roc_dealloc` of the box of a statement. -/
def rocDealloc (box : ℕ) : StateT (StatementHeap θ W) (Except Fault) Unit := fun s =>
  if box ∈ s.dealloced then .error .undefined
  else
    match s.host.statements[box]? with
    | none => .error .undefined
    | some stmt =>
      (dropStatement sqlite stmt s.host).map fun r => (r.1, ⟨r.2, box :: s.dealloced⟩)

/-- What a program does, one thing. -/
def heapAct : HeapAction θ → StateT (StatementHeap θ W) (Except Fault) (Option SqliteAnswer)
  | .call t action => some <$> heapCall sqlite t action
  | .dealloc box => (fun _ => none) <$> rocDealloc sqlite box

end BasicCli.Sqlite
