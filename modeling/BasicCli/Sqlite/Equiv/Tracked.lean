import BasicCli.Sqlite.Tracked

/-!
# The small SQLite that finalises meets the laws
-/

namespace BasicCli.Sqlite

theorem lifetimeLaws_tracked : LifetimeLaws trackedSqlite TrackedWorld.live where
  null w hp := (w.bound 0 hp).1 rfl
  openV2 _ _ := rfl
  prepareV2 w connection query len p w' h := by
    have hprepare : w.prepareV2 connection query = ((sqliteOk, p), w') := h
    rw [TrackedWorld.prepareV2] at hprepare
    split at hprepare
    · cases hprepare
      -- The handle is the next number, which no statement has had.
      refine .inr ⟨fun hp => ?_, ?_⟩
      · have hle := (w.bound _ hp).2
        omega
      · ext q
        simp [TrackedWorld.live]
    · cases hprepare
  prepareV2_error w connection query len err p w' herr h := by
    have hprepare : w.prepareV2 connection query = ((err, p), w') := h
    rw [TrackedWorld.prepareV2] at hprepare
    split at hprepare
    · cases hprepare
      exact absurd rfl herr
    · cases hprepare
      rfl
  finalize w p _ := by
    ext q
    simp [TrackedWorld.live, trackedSqlite, TrackedWorld.finalize]
  clearBindings _ _ _ := rfl
  bindInt64 _ _ _ _ _ := rfl
  bindDouble _ _ _ _ _ := rfl
  bindText64 _ _ _ _ _ := rfl
  bindBlob64 _ _ _ _ _ := rfl
  bindNull _ _ _ _ := rfl
  step _ _ _ := rfl
  reset _ _ _ := rfl

/-- The small SQLites agree on the statements that there are. -/
theorem agreeOn_strict :
    AgreeOn (Usable TrackedWorld.live) trackedSqlite strictSqlite where
  openV2 := rfl
  prepareV2 := rfl
  errmsg := rfl
  errstr := rfl
  finalize _ _ hp := (if_pos hp).symm
  clearBindings _ _ _ _ := rfl
  bindParameterIndex _ _ _ _ := rfl
  bindInt64 _ _ _ _ := rfl
  bindDouble _ _ _ _ := rfl
  bindText64 _ _ _ _ := rfl
  bindBlob64 _ _ _ _ := rfl
  bindNull _ _ _ _ := rfl
  columnCount _ _ hp := (if_pos hp).symm
  columnName _ _ _ := rfl
  columnType _ _ _ := rfl
  columnInt64 _ _ _ := rfl
  columnDouble _ _ _ := rfl
  columnText _ _ _ := rfl
  columnBlob _ _ _ := rfl
  columnBytes _ _ _ := rfl
  step _ _ hp := (if_pos hp).symm
  reset _ _ hp := (if_pos hp).symm

end BasicCli.Sqlite
