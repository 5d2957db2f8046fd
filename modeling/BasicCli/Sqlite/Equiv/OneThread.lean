import BasicCli.Sqlite.Equiv.Calls

/-!
# The calls of one thread

* `runCalls_one_thread`: whatever one thread prepares and calls, and however SQLite answers, its
  connections stay one for each path, its statements stay on them, and no call fails because of
  either.
-/

namespace BasicCli.Sqlite

open Lookup Run

variable {θ W : Type} [DecidableEq θ] {sqlite : Sqlite3 W} {s s' : SqliteHost θ W} {t : θ}

/-- The thread has used every statement. -/
def SqliteHost.UsedBy (s : SqliteHost θ W) (t : θ) : Prop :=
  ∀ stmt ∈ s.statements, ∃ p, stmt.stmt.lookup t = some p

/-- What the stores of the thread look like. -/
structure Consistent (sqlite : Sqlite3 W) (t : θ) (s : SqliteHost θ W) : Prop where
  /-- There is at most one connection of each path. -/
  nodup : ((s.entries t).map Prod.fst).Nodup
  /-- The connections are those whose opening has succeeded. -/
  entries_eq : s.entries t = s.calls.filterMap (·.opened? t)
  /-- Every statement has been prepared on the connection of its path, and preparing it again
  answers what has been prepared and does nothing. -/
  prepared : ∀ stmt ∈ s.statements, ∃ p, stmt.stmt.lookup t = some p ∧ s.PreparedOn t stmt p ∧
    threadLocalPrepare sqlite t stmt s = .ok ((.ok p, stmt), s)

/-- Connections and statements are added, and otherwise not changed. -/
structure Keeps (t : θ) (s s' : SqliteHost θ W) : Prop where
  entries : s.entries t <+: s'.entries t
  statements : s.statements <+: s'.statements

theorem SqliteInv.consistent (hs : SqliteInv s) (hused : s.UsedBy t) : Consistent sqlite t s where
  nodup := hs.nodup t
  entries_eq := hs.entries_eq t
  prepared stmt hstmt := by
    obtain ⟨p, hp⟩ := hused stmt hstmt
    have hprepared := hs.prepared stmt hstmt t p (mem_of_lookup hp)
    exact ⟨p, hp, hprepared, threadLocalPrepare_of_lookup hs hp hprepared⟩

/-- A thread that has used every statement does not use one for the first time. -/
theorem StatementsStep.of_usedBy (h : StatementsStep t s s') (hused : s.UsedBy t) :
    s'.UsedBy t ∧ s.statements <+: s'.statements := by
  rcases h with hsame | ⟨stmt, p, hlookup, happend⟩ | ⟨box, stmt, stmt', hbox, hlookup, -, -⟩
  · rw [SqliteHost.UsedBy, hsame]
    exact ⟨hused, List.prefix_rfl⟩
  · rw [SqliteHost.UsedBy, happend]
    refine ⟨fun stmt' hmem => ?_, List.prefix_append _ _⟩
    rcases List.mem_append.mp hmem with hold | hnew
    · exact hused stmt' hold
    · rw [List.mem_singleton.mp hnew]
      exact ⟨p, hlookup⟩
  · obtain ⟨p, hp⟩ := hused stmt (List.mem_of_getElem? hbox)
    rw [hlookup] at hp
    cases hp

/-- One call. -/
theorem act_of_usedBy (hs : SqliteInv s) (hused : s.UsedBy t) {action : SqliteAction}
    {answer : SqliteAnswer} (h : act sqlite (t, action) s = .ok (answer, s')) :
    (SqliteInv s' ∧ s'.UsedBy t) ∧ Keeps t s s' := by
  have hmeets := (act_ensures hs).of_ok h
  obtain ⟨path, -, hconsults⟩ := hmeets.consults
  obtain ⟨hused', hstatements⟩ := hmeets.statements.of_usedBy hused
  exact ⟨⟨hmeets.inv, hused'⟩, hconsults.entries t, hstatements⟩

theorem act_error_of_usedBy (hs : SqliteInv s) (hused : s.UsedBy t) {action : SqliteAction}
    {e : Fault} (h : act sqlite (t, action) s = .error e) : e ≠ .expect ∧ e ≠ .alreadyBorrowed := by
  have hfault := (act_ensures hs).of_error h
  refine ⟨fun he => ?_, hfault.1⟩
  obtain ⟨stmt, hstmt, hnone⟩ := hfault.2 he
  obtain ⟨p, hp⟩ := hused stmt hstmt
  rw [hnone] at hp
  cases hp

omit [DecidableEq θ] in
theorem Keeps.trans {s₁ s₂ s₃ : SqliteHost θ W} (h₁₂ : Keeps t s₁ s₂) (h₂₃ : Keeps t s₂ s₃) :
    Keeps t s₁ s₃ :=
  ⟨h₁₂.entries.trans h₂₃.entries, h₁₂.statements.trans h₂₃.statements⟩

/-- Any number of calls. -/
theorem runCalls_of_usedBy (hs : SqliteInv s ∧ s.UsedBy t) {actions : List SqliteAction} :
    (∀ answers s', runCalls sqlite (actions.map (t, ·)) s = .ok (answers, s') →
      (SqliteInv s' ∧ s'.UsedBy t) ∧ Keeps t s s') ∧
    ∀ e, runCalls sqlite (actions.map (t, ·)) s = .error e →
      e ≠ .expect ∧ e ≠ .alreadyBorrowed := by
  have hstep : ∀ a ∈ actions.map (t, ·), ∀ s answer s', (SqliteInv s ∧ s.UsedBy t) →
      act sqlite a s = .ok (answer, s') → (SqliteInv s' ∧ s'.UsedBy t) ∧ Keeps t s s' := by
    intro a ha s answer s' hs h
    obtain ⟨action, -, rfl⟩ := List.mem_map.mp ha
    exact act_of_usedBy hs.1 hs.2 h
  have herror : ∀ a ∈ actions.map (t, ·), ∀ s e, (SqliteInv s ∧ s.UsedBy t) →
      act sqlite a s = .error e → e ≠ .expect ∧ e ≠ .alreadyBorrowed := by
    intro a ha s e hs h
    obtain ⟨action, -, rfl⟩ := List.mem_map.mp ha
    exact act_error_of_usedBy hs.1 hs.2 h
  -- The invariant says that every statement was prepared by this thread.
  obtain ⟨hok, hfault⟩ := run_invariant (fun s => SqliteInv s ∧ s.UsedBy t)
    (fun e => e ≠ .expect ∧ e ≠ .alreadyBorrowed)
    (fun a ha s answer s' hs h => (hstep a ha s answer s' hs h).1) herror hs
  refine ⟨fun answers s' h => ⟨hok answers s' h, ?_⟩, hfault⟩
  exact run_rel (fun s => ⟨List.prefix_rfl, List.prefix_rfl⟩) (fun _ _ _ => Keeps.trans) hstep hs h

/-- A box that `prepare` answers has a statement of its path and its query. -/
theorem statement_of_prepare (hs : SqliteInv s) {dbPath query : RocStr} {room : Bool} {box : ℕ}
    (h : act sqlite (t, .prepare dbPath query room) s = .ok (.prepare (.ok box), s')) :
    ∃ stmt, s'.statements[box]? = some stmt ∧ stmt.dbPath = dbPath ∧ stmt.query = query := by
  have hact : Ensures (act sqlite (t, .prepare dbPath query room)) s (fun answer s' =>
      ∀ box, answer = .prepare (.ok box) → ∃ stmt, s'.statements[box]? = some stmt ∧
        stmt.dbPath = dbPath ∧ stmt.query = query) (fun _ => True) := by
    refine ensures_map ((prepare_ensures hs).mono (fun answer s' h box hbox => ?_)
      fun _ _ => trivial)
    cases hbox
    exact h.2.2 box rfl
  exact hact.of_ok h box rfl

/-- **One thread**: in every state that its calls reach, there is one connection for each path
whose opening has succeeded, each statement is prepared on the connection of its path and found
again as it was, in that state and after any later calls; the next call asks SQLite about the path
of its own statement only, and gets its messages from that connection.  And no call has failed
because a statement could not be prepared again, or because the connections were borrowed. -/
theorem runCalls_one_thread (sqlite : Sqlite3 W) (w : W) (t : θ) (actions : List SqliteAction) :
    (∀ answers s, runCalls sqlite (actions.map (t, ·)) (.init w) = .ok (answers, s) →
      Consistent sqlite t s ∧
      (∀ (later : List SqliteAction) answers' s',
        runCalls sqlite (later.map (t, ·)) s = .ok (answers', s') →
          Keeps t s s' ∧ ∀ stmt ∈ s.statements, ∀ p, stmt.stmt.lookup t = some p →
            threadLocalPrepare sqlite t stmt s' = .ok ((.ok p, stmt), s')) ∧
      (∀ action answer s', act sqlite (t, action) s = .ok (answer, s') →
        ∃ path, action.path? s = some path ∧ Consults t path s s') ∧
      ∀ dbPath query room box s',
        act sqlite (t, .prepare dbPath query room) s = .ok (.prepare (.ok box), s') →
        ∃ stmt, s'.statements[box]? = some stmt ∧ stmt.dbPath = dbPath ∧ stmt.query = query) ∧
    ∀ e, runCalls sqlite (actions.map (t, ·)) (.init w) = .error e →
      e ≠ .expect ∧ e ≠ .alreadyBorrowed := by
  have hinit : SqliteInv (.init w : SqliteHost θ W) ∧ (.init w : SqliteHost θ W).UsedBy t :=
    ⟨SqliteInv.init w, fun stmt hstmt => absurd hstmt List.not_mem_nil⟩
  obtain ⟨hok, hfault⟩ := runCalls_of_usedBy hinit
  refine ⟨fun answers s h => ?_, hfault⟩
  obtain ⟨⟨hs, hused⟩, -⟩ := hok answers s h
  refine ⟨hs.consistent hused, fun later answers' s' hlater => ?_, fun action answer s' hact => ?_,
    fun dbPath query room box s' => statement_of_prepare hs⟩
  · -- A later call finds what an earlier one has prepared, and prepares nothing.
    obtain ⟨⟨hs', -⟩, hkeeps⟩ := (runCalls_of_usedBy ⟨hs, hused⟩).1 answers' s' hlater
    refine ⟨hkeeps, fun stmt hstmt p hp => ?_⟩
    exact threadLocalPrepare_of_lookup hs' hp
      (hs'.prepared stmt (hkeeps.statements.subset hstmt) t p (mem_of_lookup hp))
  · exact ((act_ensures hs).of_ok hact).consults

end BasicCli.Sqlite
