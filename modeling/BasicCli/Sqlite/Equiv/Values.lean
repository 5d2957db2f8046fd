import BasicCli.Sqlite.Equiv.Bindings

/-!
# Values through a statement

* `columnValue_eq`: what `column_value` answers for the row of a statement.
* `bound_value_read_back`: a value that is bound, selected and read is what it was, but a NaN is
  NULL.
-/

namespace BasicCli.Sqlite

open Lookup Run

variable {θ W : Type} {sqlite : Sqlite3 W} {s s₁ s₂ : SqliteHost θ W} {t : θ}

/-! ### Numbers of C -/

/-- A length or a count, as a `usize`. -/
theorem toNat_of_toInt {c : Int32} {n : ℕ} (h : c.toInt = n) : c.toInt64.toUInt64.toNat = n := by
  have h64 : c.toInt64.toBitVec.toInt = n := by
    have hsame : c.toInt64.toBitVec.toInt = c.toInt64.toInt := rfl
    rw [hsame, Int32.toInt_toInt64, h]
  have hnat : c.toInt64.toUInt64.toNat = c.toInt64.toBitVec.toNat := rfl
  have hlt := c.toInt64.toBitVec.isLt
  rw [BitVec.toInt_eq_toNat_cond] at h64
  rw [hnat]
  split_ifs at h64
  · omega
  · omega

theorem toInt32_eq_ofNat (j : UInt64) : j.toUInt32.toInt32 = .ofNat j.toNat := rfl

/-! ### Columns -/

/-- The value of a column. -/
def valueOf : SqliteColumn → SqliteValue
  | .integer val => .integer val
  | .float bits => .real bits
  | .text bytes => .string (.fromUtf8Unchecked bytes)
  | .blob bytes => .bytes bytes
  | .null => .null

theorem fromRawParts_of_isPrefix {data : CPtr} {len : Int32} {bytes : List UInt8}
    (hlen : len.toInt = bytes.length) (hnull : data.addr ≠ 0) (hbytes : bytes <+: data.bytes) :
    fromRawParts data len.toInt64.toUInt64 = .ok ⟨data.addr, bytes, hnull⟩ := by
  have hnat := toNat_of_toInt hlen
  rw [fromRawParts, dif_neg hnull, if_neg (by rw [hnat]; exact Nat.not_lt_of_le hbytes.length_le)]
  simp only [hnat, ← List.prefix_iff_eq_take.mp hbytes]

/-- What `column_value` makes of a column, unless it is a blob without bytes. -/
theorem readColumn_of_columnIs {w : W} {p : ℕ} {i : Int32} {c : SqliteColumn}
    (h : ColumnIs sqlite w p i c) (hne : c ≠ .blob []) :
    readColumn sqlite w p i = .ok (valueOf c) := by
  rw [readColumn]
  rcases c with val | bits | bytes | bytes | _
  · obtain ⟨htype, hval⟩ := h
    rw [htype, hval]
    rfl
  · obtain ⟨htype, hbits⟩ := h
    rw [htype, hbits]
    rfl
  · obtain ⟨htype, hlen, hnull, hbytes⟩ := h
    rw [htype]
    simp only [fromRawParts_of_isPrefix hlen hnull hbytes]
    rfl
  · obtain ⟨htype, hlen, hnull, hbytes⟩ := h
    have hnull' : (sqlite.columnBlob w p i).addr ≠ 0 := by
      rw [Ne, hnull]
      rintro rfl
      exact hne rfl
    rw [htype]
    simp only [fromRawParts_of_isPrefix hlen hnull' hbytes]
    rfl
  · rw [h]
    rfl

/-! ### `column_value` -/

/-- A value as it is read back: a NaN is not kept. -/
def readBack : SqliteValue → SqliteValue
  | .real bits => if isNan bits then .null else .real bits
  | value => value

theorem valueOf_stored (value : SqliteValue) : valueOf (stored value) = readBack value := by
  rcases value with val | val | _ | bits | val
  · rfl
  · rfl
  · rfl
  · rw [stored, readBack]
    split_ifs
    · rfl
    · rfl
  · rfl

/-- A column within the range is read by what it holds. -/
theorem columnValue_of_lt {count : UInt64} {column : Int32 → SqliteColumn} {j : UInt64}
    (hj : ¬ j ≥ count) :
    BasicCli.columnValue count column j = .ok (valueOf (column j.toUInt32.toInt32)) := by
  rw [BasicCli.columnValue, if_neg hj]
  rcases column j.toUInt32.toInt32 with val | bits | bytes | bytes | _
  · rfl
  · rfl
  · rfl
  · rfl
  · rfl

theorem stored_ne_empty {value : SqliteValue} (h : value ≠ .bytes []) :
    stored value ≠ .blob [] := by
  rcases value with val | val | _ | bits | val
  · rw [stored, Ne, SqliteColumn.blob.injEq]
    rintro rfl
    exact h rfl
  · simp [stored]
  · simp [stored]
  · rw [stored]
    split_ifs
    · simp
    · simp
  · simp [stored]

variable [DecidableEq θ]

theorem columnValue_out_of_range (hs : SqliteInv s) {box : ℕ} {stmt : SqliteStatement θ} {p : ℕ}
    (hbox : s.statements[box]? = some stmt) (hp : stmt.stmt.lookup t = some p) {j : UInt64}
    (hj : j ≥ (sqlite.columnCount s.world p).toInt64.toUInt64)
    (column : Int32 → SqliteColumn) :
    columnValue sqlite t box j s =
      .ok (BasicCli.columnValue (sqlite.columnCount s.world p).toInt64.toUInt64 column j, s) := by
  have hget : (get : SqliteM θ W (SqliteHost θ W)) s = .ok (s, s) := rfl
  rw [columnValue, bind_ok (localStmt_of_lookup hs hbox hp), BasicCli.columnValue, if_pos hj]
  dsimp only
  rw [bind_ok hget, if_pos hj]
  rfl

/-- **`column_value`** of a row is that of its columns, unless it reads a blob without bytes. -/
theorem columnValue_eq (laws : ColumnLaws sqlite) (hs : SqliteInv s) {box : ℕ}
    {stmt : SqliteStatement θ} {p : ℕ} (hbox : s.statements[box]? = some stmt)
    (hp : stmt.stmt.lookup t = some p) {values : List SqliteColumn} {j : UInt64}
    (hrow : laws.row s.world p = some values) (hne : values[j.toNat]? ≠ some (.blob [])) :
    columnValue sqlite t box j s =
      .ok (BasicCli.columnValue (sqlite.columnCount s.world p).toInt64.toUInt64
        (fun i => values[i.toInt.toNat]?.getD .null) j, s) := by
  have hcount := laws.count s.world p values hrow
  by_cases hj : j ≥ (sqlite.columnCount s.world p).toInt64.toUInt64
  · exact columnValue_out_of_range hs hbox hp hj _
  · have hlt : j.toNat < values.length := by
      rw [ge_iff_le, UInt64.le_iff_toNat_le, toNat_of_toInt hcount] at hj
      exact Nat.lt_of_not_le hj
    have hsmall : j.toNat < 2 ^ 31 := by
      have hmax := Int32.toInt_lt (sqlite.columnCount s.world p)
      omega
    -- The index survives the conversions, since the columns are counted by an `i32`.
    have hindex : j.toUInt32.toInt32.toInt.toNat = j.toNat := by
      rw [toInt32_eq_ofNat, Int32.toInt_ofNat_of_lt hsmall, Int.toNat_natCast]
    have hvalue : values[j.toNat]? = some values[j.toNat] := List.getElem?_eq_getElem hlt
    rw [hvalue] at hne
    have hget : (get : SqliteM θ W (SqliteHost θ W)) s = .ok (s, s) := rfl
    have hread : readColumn sqlite s.world p (.ofNat j.toNat) = .ok (valueOf values[j.toNat]) :=
      readColumn_of_columnIs (laws.column s.world p values j.toNat _ hrow hvalue) fun h =>
        hne (congrArg some h)
    rw [columnValue, bind_ok (localStmt_of_lookup hs hbox hp), columnValue_of_lt hj]
    dsimp only
    rw [bind_ok hget, if_neg hj, toInt32_eq_ofNat, bind_lift_ok hread]
    rw [toInt32_eq_ofNat] at hindex
    simp only [hindex, hvalue, Option.getD_some]
    rfl

/-- A column of the row that is not a blob without bytes. -/
theorem columnValue_of_row (laws : ColumnLaws sqlite) (hs : SqliteInv s) {box : ℕ}
    {stmt : SqliteStatement θ} {p : ℕ} (hbox : s.statements[box]? = some stmt)
    (hp : stmt.stmt.lookup t = some p) {values : List SqliteColumn} {j : UInt64} {c : SqliteColumn}
    (hrow : laws.row s.world p = some values) (hj : values[j.toNat]? = some c)
    (hne : c ≠ .blob []) :
    columnValue sqlite t box j s = .ok (.ok (valueOf c), s) := by
  have hcount := laws.count s.world p values hrow
  obtain ⟨hlt, -⟩ := List.getElem?_eq_some_iff.mp hj
  have hsmall : j.toNat < 2 ^ 31 := by
    have hmax := Int32.toInt_lt (sqlite.columnCount s.world p)
    omega
  have hrange : ¬ j ≥ (sqlite.columnCount s.world p).toInt64.toUInt64 := by
    rw [ge_iff_le, UInt64.le_iff_toNat_le, toNat_of_toInt hcount]
    exact Nat.not_le_of_lt hlt
  rw [columnValue_eq laws hs hbox hp hrow fun h => hne (Option.some.inj (hj.symm.trans h)),
    columnValue_of_lt hrange, toInt32_eq_ofNat, Int32.toInt_ofNat_of_lt hsmall,
    Int.toNat_natCast, hj]
  rfl

/-- What a step that comes to a row has done. -/
theorem step_row (hs : SqliteInv s) {box : ℕ} {stmt : SqliteStatement θ} {p : ℕ}
    (hbox : s.statements[box]? = some stmt) (hp : stmt.stmt.lookup t = some p)
    (h : step sqlite t box s = .ok (.ok .row, s₁)) :
    (sqlite.step s.world p).1 = sqliteRow ∧ s₁ = { s with world := (sqlite.step s.world p).2 } := by
  have hensures : Ensures (step sqlite t box) s (fun answer s' => answer = .ok .row →
      (sqlite.step s.world p).1 = sqliteRow ∧
        s' = { s with world := (sqlite.step s.world p).2 }) (fun _ => True) := by
    rw [step, Ensures, bind_ok (localStmt_of_lookup hs hbox hp)]
    refine ensures_call_bind ?_
    split_ifs with hrow hdone
    · exact ensures_pure fun _ => ⟨hrow, rfl⟩
    · exact ensures_pure fun h => by simp at h
    · refine ensures_bind ensures_true ?_
      intro e s' _
      exact ensures_pure fun h => by simp at h
  exact hensures.of_ok h rfl

/-- **What is bound is read back**: when `bind` and `step` have gone through, a statement that
selects the parameter answers the value which was bound to it, except that a NaN is NULL; and the
bytes are read through no null pointer.  A blob without bytes is left out. -/
theorem bound_value_read_back (laws : ColumnLaws sqlite) {calls : List (θ × SqliteAction)} {w : W}
    {answers : List SqliteAnswer} (hrun : runCalls sqlite calls (.init w) = .ok (answers, s))
    {box : ℕ} {bindings : List SqliteBindings}
    (hbind : bind sqlite t box bindings s = .ok (.ok (), s₁))
    (hstep : step sqlite t box s₁ = .ok (.ok .row, s₂))
    {stmt : SqliteStatement θ} {p : ℕ} (hbox : s₁.statements[box]? = some stmt)
    (hp : stmt.stmt.lookup t = some p) {i : Int32} (hi : i ≠ 0) {j : UInt64}
    (hselects : ∃ values, laws.row (sqlite.step s₁.world p).2 p = some values ∧
      values[j.toNat]? = some (laws.param s₁.world p i))
    {name : List UInt8} (hname : laws.name s₁.world p i = some name) {value : SqliteValue}
    (hvalue : lastBinding? bindings name = some value) (hne : value ≠ .bytes []) :
    columnValue sqlite t box j s₂ = .ok (.ok (readBack value), s₂) := by
  have hs := runCalls_inv hrun
  have hs₁ : SqliteInv s₁ := ((bind_ensures hs).of_ok hbind).inv
  obtain ⟨stmt', p', hbox', hp', -, hparam, -⟩ :=
    (bind_bound laws.toParameterLaws hs).of_ok hbind rfl
  rw [hbox] at hbox'
  cases hbox'
  rw [hp] at hp'
  cases hp'
  -- What `bind` has stored is what the column of the row is given.
  have hstored : laws.param s₁.world p i = stored value := by
    rw [hparam i hi, hname, boundTo, Option.bind_some, hvalue]
  obtain ⟨-, rfl⟩ := step_row hs₁ hbox hp hstep
  obtain ⟨values, hvalues, hj⟩ := hselects
  rw [hstored] at hj
  have hworld := (BodyMeets.world (t := t) hs₁ stmt (sqlite.step s₁.world p).2).inv
  rw [columnValue_of_row laws hworld hbox hp hvalues hj (stored_ne_empty hne), valueOf_stored]

theorem bound_value_read_back_ref : ∃ (s s₁ s₂ : SqliteHost ℕ RefWorld),
    bind refSqlite 0 0 [⟨.fromStr ":v", .string ⟨[97, 0, 98]⟩⟩] s = .ok (.ok (), s₁) ∧
    step refSqlite 0 0 s₁ = .ok (.ok .row, s₂) ∧
    columnValue refSqlite 0 0 0 s₂ = .ok (.ok (.string ⟨[97, 0, 98]⟩), s₂) := by
  have hanswers : (runCalls refSqlite ([((0 : ℕ), refPrepare "SELECT :v")] ++
      [(0, .bind 0 [⟨.fromStr ":v", .string ⟨[97, 0, 98]⟩⟩])] ++ [(0, .step 0)])
      (.init .empty)).map Prod.fst =
        .ok ([.prepare (.ok 0)] ++ [.bind (.ok ())] ++ [.step (.ok .row)]) := by
    decide +kernel
  obtain ⟨s₂, hrun₂⟩ := exists_of_answers hanswers
  obtain ⟨s₁, hrun₁, hact₁⟩ := run_concat_ok.mp hrun₂
  obtain ⟨s, hrun, hact⟩ := run_concat_ok.mp hrun₁
  obtain ⟨_, hstep, hr⟩ := map_ok.mp hact₁
  cases hr
  obtain ⟨_, hbind, hr⟩ := map_ok.mp hact
  cases hr
  obtain ⟨stmt, p, hbox, hp, -, -, hisParam⟩ :=
    (bind_bound refLaws.toParameterLaws (runCalls_inv hrun)).of_ok hbind rfl
  obtain ⟨i, hi, hname⟩ := hisParam _ List.mem_cons_self
  have hone := RefWorld.eq_one_of_name hname
  subst hone
  have hs₁ : SqliteInv s₁ := ((bind_ensures (runCalls_inv hrun)).of_ok hbind).inv
  have hrow := (step_row hs₁ hbox hp hstep).1
  exact ⟨s, s₁, s₂, hbind, hstep, bound_value_read_back refLaws hrun hbind hstep hbox hp hi (j := 0)
    (RefWorld.step_selects hrow) hname rfl (by simp)⟩

/-- The calls that bind a value, step to the row and read it. -/
def refRoundTrip (value : SqliteValue) : List (ℕ × SqliteAction) :=
  [(0, refPrepare "SELECT :v"), (0, .bind 0 [⟨.fromStr ":v", value⟩]), (0, .step 0),
    (0, .columnValue 0 0)]

/-- The answers to these calls. -/
def refAnswers (value : SqliteValue) : Except Fault (List SqliteAnswer) :=
  (runCalls refSqlite (refRoundTrip value) (.init .empty)).map Prod.fst

/-- Neither a NaN nor a blob without bytes is read back. -/
theorem not_read_back_ref :
    refAnswers (.real 0x7FF8000000000000) =
      .ok [.prepare (.ok 0), .bind (.ok ()), .step (.ok .row), .columnValue (.ok .null)] ∧
    refAnswers (.bytes []) = .error .undefined := by
  decide +kernel

end BasicCli.Sqlite
