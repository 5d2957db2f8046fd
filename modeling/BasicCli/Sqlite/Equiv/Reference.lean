import BasicCli.Sqlite.Reference

/-!
# The small SQLite meets the laws
-/

namespace BasicCli.Sqlite

namespace RefWorld

variable {w : RefWorld} {p : ℕ} {i : Int32}

theorem stmt?_setStmt {stmt : RefStmt} (stmt' : RefStmt) (h : w.stmt? p = some stmt) :
    (w.setStmt p stmt').stmt? p = some stmt' := by
  rw [stmt?] at h ⊢
  split_ifs at h ⊢ with hp
  obtain ⟨hlt, -⟩ := List.getElem?_eq_some_iff.mp h
  exact List.getElem?_set_self hlt

/-- What the parameter of a statement holds. -/
def param (w : RefWorld) (p : ℕ) (i : Int32) : SqliteColumn :=
  match w.stmt? p with
  | some (.selectParam value _) => if i = 1 then value.1 else .null
  | _ => .null

/-- Its name. -/
def name (w : RefWorld) (p : ℕ) (i : Int32) : Option (List UInt8) :=
  match w.stmt? p with
  | some (.selectParam _ _) => if i = 1 then some (strBytes ":v") else none
  | _ => none

/-- The parameters of the small SQLite. -/
def parameters : Parameters RefWorld where
  param := param
  name := name
  active w p := ∃ value row, w.stmt? p = some (.selectParam value (some row))

/-- A `sqlite3_bind_..` fails and changes no statement, or sets the parameter of one that has no
row. -/
theorem bind_cases (w : RefWorld) (p : ℕ) (i : Int32) (v : SqliteColumn) :
    (∃ code ≠ sqliteOk, w.bind p i v = w.fail code) ∨
      ∃ value hsize, w.stmt? p = some (.selectParam value none) ∧ i = 1 ∧
        w.bind p i v = (sqliteOk, w.setStmt p (.selectParam ⟨v, hsize⟩ none)) := by
  rw [bind]
  split
  · next value hstmt =>
    split_ifs with hi hsize
    · exact .inr ⟨value, hsize, hstmt, hi, rfl⟩
    · exact .inl ⟨18, by decide, rfl⟩
    · exact .inl ⟨25, by decide, rfl⟩
  · exact .inl ⟨21, by decide, rfl⟩

/-- Every `sqlite3_bind_..`. -/
theorem binds_bind (w : RefWorld) (p : ℕ) (i : Int32) (v : SqliteColumn) :
    parameters.Binds w p i v (w.bind p i v) := by
  rcases bind_cases w p i v with ⟨code, herr, hbind⟩ | ⟨value, hsize, hstmt, rfl, hbind⟩
  · rw [hbind]
    exact ⟨fun _ => herr, fun _ h => absurd h herr, rfl⟩
  · have hset := stmt?_setStmt (.selectParam ⟨v, hsize⟩ none) hstmt
    rw [hbind]
    refine ⟨?_, fun _ _ => ?_, ?_⟩
    · rintro ⟨value', row', h⟩
      rw [hstmt] at h
      cases h
    · funext i
      change param _ p i = Function.update (param w p) 1 v i
      by_cases hi : i = 1
      · subst hi
        rw [Function.update_self, param, hset]
        rfl
      · rw [Function.update_of_ne hi, param, param, hset, hstmt]
        simp only [if_neg hi]
    · funext i
      change name _ p i = name w p i
      rw [name, name, hset, hstmt]

theorem index_eq (w : RefWorld) (p : ℕ) (n : List UInt8) (i : Int32) (hi : i ≠ 0) :
    w.bindParameterIndex p n = i ↔ w.name p i = some n := by
  rw [bindParameterIndex, name]
  rcases w.stmt? p with _ | connection | _ | ⟨value, row⟩
  · exact ⟨fun h => absurd h.symm hi, by simp⟩
  · exact ⟨fun h => absurd h.symm hi, by simp⟩
  · exact ⟨fun h => absurd h.symm hi, by simp⟩
  · dsimp only
    split_ifs with hn h1 h1
    · subst hn h1
      exact ⟨fun _ => rfl, fun _ => rfl⟩
    · exact ⟨fun h => absurd h.symm h1, by simp⟩
    · exact ⟨fun h => absurd h.symm hi, fun h => absurd (Option.some.inj h).symm hn⟩
    · exact ⟨fun h => absurd h.symm hi, by simp⟩

/-- The parameter that has a name is the first. -/
theorem eq_one_of_name {n : List UInt8} (h : w.name p i = some n) : i = 1 := by
  rw [name] at h
  split at h
  · by_contra hi
    rw [if_neg hi] at h
    cases h
  · cases h

theorem clearBindings_spec (w : RefWorld) (p : ℕ) :
    (∀ i, (w.clearBindings p).2.param p i = .null) ∧
      (w.clearBindings p).2.name p = w.name p := by
  rw [clearBindings]
  split
  · next value row hstmt =>
    have hset := stmt?_setStmt (.selectParam ⟨.null, by decide⟩ row) hstmt
    refine ⟨fun i => ?_, ?_⟩
    · rw [param, hset]
      exact ite_self _
    · funext i
      rw [name, name, hset, hstmt]
  · next hstmt =>
    refine ⟨fun i => ?_, rfl⟩
    rw [param]
    split
    · next value row h => exact absurd h (hstmt value row)
    · rfl

/-- A row has one column, which is what it holds. -/
theorem row_eq_some {values : List SqliteColumn} (h : w.row p = some values) :
    w.columnCount p = 1 ∧ values = [(w.column p 0).1] := by
  rw [row] at h
  split at h
  · next value row hstmt =>
    cases h
    rw [columnCount, column, hstmt]
    exact ⟨rfl, rfl⟩
  · cases h

/-- A step that comes to a row selects the parameter. -/
theorem step_selects (h : (w.step p).1 = sqliteRow) :
    ∃ values, (w.step p).2.row p = some values ∧ values[0]? = some (w.param p 1) := by
  rw [step] at h ⊢
  rcases hstmt : w.stmt? p with _ | connection | _ | ⟨value, _ | value'⟩
  · rw [hstmt] at h
    exact absurd h (by decide : (21 : Int32) ≠ sqliteRow)
  · rw [hstmt] at h
    exact absurd h (by decide : sqliteDone ≠ sqliteRow)
  · rw [hstmt] at h
    exact absurd h (by decide : sqliteDone ≠ sqliteRow)
  · refine ⟨[value.1], ?_, ?_⟩
    · rw [row, stmt?_setStmt _ hstmt]
    · rw [param, hstmt]
      rfl
  · rw [hstmt] at h
    exact absurd h (by decide : sqliteDone ≠ sqliteRow)

end RefWorld

theorem columnIs_refSqlite (w : RefWorld) (p : ℕ) (i : Int32) :
    ColumnIs refSqlite w p i (w.column p i).1 := by
  have htype : refSqlite.columnType w p i = typeOf (w.column p i).1 := rfl
  have hlen : (refSqlite.columnBytes w p i).toInt = byteSize (w.column p i).1 :=
    Int32.toInt_ofNat_of_lt (w.column p i).2
  -- One case for each type of a column.
  rcases hc : (w.column p i).1 with val | bits | bytes | bytes | _
  · rw [hc] at htype
    have hinteger : refSqlite.columnInt64 w p i = val := by simp only [refSqlite, hc]
    exact ⟨htype, hinteger⟩
  · rw [hc] at htype
    have hdouble : refSqlite.columnDouble w p i = bits := by simp only [refSqlite, hc]
    exact ⟨htype, hdouble⟩
  · rw [hc] at htype hlen
    have htext : refSqlite.columnText w p i = ⟨4096, bytes ++ [0]⟩ := by simp only [refSqlite, hc]
    refine ⟨htype, hlen, ?_, ?_⟩
    · rw [htext]
      simp
    · rw [htext]
      exact List.prefix_append bytes [0]
  · rw [hc] at htype hlen
    have hblob : refSqlite.columnBlob w p i = if bytes = [] then ⟨0, []⟩ else ⟨4096, bytes⟩ := by
      simp only [refSqlite, hc]
    refine ⟨htype, hlen, ?_, ?_⟩
    · rw [hblob]
      split_ifs with hempty
      · exact ⟨fun _ => hempty, fun _ => rfl⟩
      · simp [hempty]
    · rw [hblob]
      split_ifs with hempty
      · subst hempty
        exact List.nil_prefix
      · exact List.prefix_rfl
  · rw [hc] at htype
    exact htype

/-- **The laws can be met.** -/
def refLaws : ColumnLaws refSqlite where
  toParameters := RefWorld.parameters
  index_eq := RefWorld.index_eq
  clear_param w p := (RefWorld.clearBindings_spec w p).1
  clear_name w p := (RefWorld.clearBindings_spec w p).2
  bindInt64 w p i val := RefWorld.binds_bind w p i (.integer val)
  bindDouble w p i bits := RefWorld.binds_bind w p i (if isNan bits then .null else .float bits)
  bindText64 w p i bytes := RefWorld.binds_bind w p i (.text bytes)
  bindBlob64 w p i bytes := RefWorld.binds_bind w p i (.blob bytes)
  bindNull w p i := RefWorld.binds_bind w p i .null
  row := RefWorld.row
  count w p values h := by
    obtain ⟨hcount, rfl⟩ := RefWorld.row_eq_some h
    have heq : refSqlite.columnCount w p = w.columnCount p := rfl
    rw [heq, hcount]
    rfl
  column w p values j v h hj := by
    obtain ⟨-, rfl⟩ := RefWorld.row_eq_some h
    obtain ⟨hlt, rfl⟩ := List.getElem?_eq_some_iff.mp hj
    obtain rfl : j = 0 := Nat.lt_one_iff.mp hlt
    exact columnIs_refSqlite w p 0

end BasicCli.Sqlite
