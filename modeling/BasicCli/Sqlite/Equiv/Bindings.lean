import BasicCli.Sqlite.Equiv.Calls
import BasicCli.Sqlite.Equiv.Reference

/-!
# What a successful `bind` leaves

* `bind_ok`: whatever was called before, the parameters of the statement hold what the bindings say
  and nothing else, and every binding is of a parameter.
-/

namespace BasicCli.Sqlite

open Lookup Run

variable {θ W : Type} {sqlite : Sqlite3 W} {s s' : SqliteHost θ W} {t : θ}

/-! ### Values -/

/-- What SQLite stores of a value that is bound. -/
def stored : SqliteValue → SqliteColumn
  | .integer val => .integer val
  | .real bits => if isNan bits then .null else .float bits
  | .string val => .text val.bytes
  | .bytes val => .blob val
  | .null => .null

/-- The value of the last binding of the name. -/
def lastBinding? (bindings : List SqliteBindings) (name : List UInt8) : Option SqliteValue :=
  (bindings.reverse.find? (·.name.bytes = name)).map (·.value)

/-- What a parameter of the name should hold. -/
def boundTo (bindings : List SqliteBindings) (name : Option (List UInt8)) : SqliteColumn :=
  match name.bind (lastBinding? bindings) with
  | some value => stored value
  | none => .null

theorem lastBinding?_cons {binding : SqliteBindings} {bindings : List SqliteBindings}
    {name : List UInt8} :
    lastBinding? (binding :: bindings) name =
      (lastBinding? bindings name).or
        (if binding.name.bytes = name then some binding.value else none) := by
  rw [lastBinding?, lastBinding?, List.reverse_cons, List.find?_append, Option.map_or]
  split_ifs with hname
  · rw [List.find?_cons_of_pos (by simpa using hname)]
    rfl
  · rw [List.find?_cons_of_neg (by simpa using hname)]
    rfl

theorem bindValue_binds (laws : ParameterLaws sqlite) (w : W) (p : ℕ) (i : Int32)
    (value : SqliteValue) :
    laws.Binds w p i (stored value) (bindValue sqlite w p i value) := by
  rcases value with val | val | _ | bits | val
  · exact laws.bindBlob64 w p i val
  · exact laws.bindInt64 w p i val
  · exact laws.bindNull w p i
  · exact laws.bindDouble w p i bits
  · exact laws.bindText64 w p i val.bytes

/-! ### The loop -/

/-- From `w` to `w'` the bindings have been set, on parameters of their names. -/
structure Bound (laws : ParameterLaws sqlite) (p : ℕ) (bindings : List SqliteBindings) (w w' : W) :
    Prop where
  name : laws.name w' p = laws.name w p
  param : ∀ i, i ≠ 0 → laws.param w' p i =
    match (laws.name w p i).bind (lastBinding? bindings) with
    | some value => stored value
    | none => laws.param w p i
  isParam : ∀ binding ∈ bindings, ∃ i, i ≠ 0 ∧ laws.name w p i = some binding.name.bytes

/-- One binding is set on the parameter of its name, and then the rest. -/
theorem Bound.cons {laws : ParameterLaws sqlite} {p : ℕ} {binding : SqliteBindings}
    {bindings : List SqliteBindings} {w w₁ w' : W} {index : Int32} (hindex : index ≠ 0)
    (hname : laws.name w p index = some binding.name.bytes)
    (hparam : laws.param w₁ p = Function.update (laws.param w p) index (stored binding.value))
    (hsame : laws.name w₁ p = laws.name w p) (h : Bound laws p bindings w₁ w') :
    Bound laws p (binding :: bindings) w w' where
  name := h.name.trans hsame
  param i hi := by
    rw [h.param i hi, hsame, hparam]
    by_cases hii : i = index
    · subst hii
      rw [hname, Option.bind_some, Option.bind_some, lastBinding?_cons, if_pos rfl,
        Function.update_self]
      rcases lastBinding? bindings binding.name.bytes with _ | value
      · rfl
      · rfl
    · rw [Function.update_of_ne hii]
      rcases hi' : laws.name w p i with _ | name
      · rfl
      · have hne : binding.name.bytes ≠ name := by
          rintro rfl
          -- two parameters of one name
          have h₁ := (laws.index_eq w p binding.name.bytes i hi).mpr hi'
          have h₂ := (laws.index_eq w p binding.name.bytes index hindex).mpr hname
          exact hii (h₁.symm.trans h₂)
        rw [Option.bind_some, Option.bind_some, lastBinding?_cons, if_neg hne, Option.or_none]
  isParam binding' hbinding' := by
    rcases List.mem_cons.mp hbinding' with rfl | hrest
    · exact ⟨index, hindex, hname⟩
    · obtain ⟨i, hi, hi'⟩ := h.isParam binding' hrest
      rw [hsame] at hi'
      exact ⟨i, hi, hi'⟩

variable [DecidableEq θ]

theorem error_ne_ok {stmt : SqliteStatement θ} {code : Int32} {Q : SqliteHost θ W → Prop} :
    Ensures (rocErrFromErrcode sqlite t stmt code >>= fun e =>
        Pure.pure (.error e : Except SqliteError Unit))
      s (fun answer s' => answer = .ok () → Q s') (fun _ => True) := by
  refine ensures_bind ensures_true ?_
  intro e s' _
  exact ensures_pure fun h => by simp at h

theorem bindLoop_bound (laws : ParameterLaws sqlite) {stmt : SqliteStatement θ} {p : ℕ}
    {bindings : List SqliteBindings} :
    Ensures (bindLoop sqlite t stmt p bindings) s
      (fun answer s' => answer = .ok () →
        s'.statements = s.statements ∧ Bound laws p bindings s.world s'.world)
      (fun _ => True) := by
  induction bindings generalizing s with
  | nil =>
    refine ensures_pure fun _ => ⟨rfl, rfl, fun i _ => ?_, fun _ h => by simp at h⟩
    rcases laws.name s.world p i with _ | name
    · rfl
    · rfl
  | cons binding bindings ih =>
    rw [bindLoop]
    refine ensures_lift_bind (fun name hnew => ?_) fun _ _ => trivial
    obtain ⟨-, rfl⟩ := cStringNew_ok hnew
    refine ensures_get_bind ?_
    dsimp only
    split_ifs with hindex
    · exact ensures_pure fun h => by simp at h
    · have hbinds := bindValue_binds laws s.world p
        (sqlite.bindParameterIndex s.world p binding.name.bytes) binding.value
      have hname := (laws.index_eq s.world p binding.name.bytes _ hindex).mp rfl
      refine ensures_call_bind ?_
      split_ifs with herr
      · exact error_ne_ok
      · refine ih.mono (fun answer s' h hanswer => ?_) fun _ h => h
        obtain ⟨hstatements, hrest⟩ := h hanswer
        -- SQLite would have refused to bind on an active statement
        have hparam := hbinds.param (fun hactive => hbinds.active hactive (not_not.mp herr))
          (not_not.mp herr)
        exact ⟨hstatements, hrest.cons hindex hname hparam hbinds.name⟩

theorem bind_bound (laws : ParameterLaws sqlite) (hs : SqliteInv s) {box : ℕ}
    {bindings : List SqliteBindings} :
    Ensures (bind sqlite t box bindings) s
      (fun answer s' => answer = .ok () → ∃ stmt p, s'.statements[box]? = some stmt ∧
        stmt.stmt.lookup t = some p ∧
        (∀ stmt₀ p₀, s.statements[box]? = some stmt₀ → stmt₀.stmt.lookup t = some p₀ → p₀ = p) ∧
        (∀ i, i ≠ 0 → laws.param s'.world p i = boundTo bindings (laws.name s'.world p i)) ∧
        ∀ binding ∈ bindings, ∃ i, i ≠ 0 ∧ laws.name s'.world p i = some binding.name.bytes)
      (fun _ => True) := by
  rw [bind]
  refine ensures_bind ((localStmt_ensures hs).mono (fun _ _ h => h) fun _ _ => trivial) ?_
  -- The rest of the call happens to one statement: this thread's.
  rintro ⟨stmt', p⟩ s₁ ⟨stmt, hbegun⟩
  dsimp only
  split_ifs
  · exact ensures_throw trivial
  refine ensures_call_bind ?_
  split_ifs
  · exact error_ne_ok
  · refine (bindLoop_bound laws).mono (fun answer s' h hanswer => ?_) fun _ h => h
    obtain ⟨hstatements, hname, hparam, hisParam⟩ := h hanswer
    refine ⟨stmt', p, ?_, hbegun.lookup, fun stmt₀ p₀ hbox₀ hp₀ => ?_, fun i hi => ?_,
      fun binding hbinding => ?_⟩
    · rw [hstatements]
      exact hbegun.box_eq
    · rw [hbegun.found] at hbox₀
      cases hbox₀
      exact (hbegun.same p₀ hp₀).2.1.symm
    · rw [hparam i hi, hname, boundTo]
      dsimp only
      rw [laws.clear_param]
    · rw [hname]
      exact hisParam binding hbinding

/-- **After a `bind` that succeeds**, whatever calls there have been before it, each parameter of
the statement holds the value of the last binding of its name, and NULL if there is none; and each
binding is of a parameter. -/
theorem bind_ok_spec (laws : ParameterLaws sqlite) {calls : List (θ × SqliteAction)} {w : W}
    {answers : List SqliteAnswer} (hrun : runCalls sqlite calls (.init w) = .ok (answers, s))
    {box : ℕ} {bindings : List SqliteBindings}
    (hbind : bind sqlite t box bindings s = .ok (.ok (), s')) :
    ∃ stmt p, s'.statements[box]? = some stmt ∧ stmt.stmt.lookup t = some p ∧
      (∀ stmt₀ p₀, s.statements[box]? = some stmt₀ → stmt₀.stmt.lookup t = some p₀ → p₀ = p) ∧
      (∀ i, i ≠ 0 → laws.param s'.world p i = boundTo bindings (laws.name s'.world p i)) ∧
      ∀ binding ∈ bindings, ∃ i, i ≠ 0 ∧ laws.name s'.world p i = some binding.name.bytes :=
  (bind_bound laws (runCalls_inv hrun)).of_ok hbind rfl

/-- Calls before the `bind`: one of an active statement, which SQLite refuses, and one that stops
at a name which is no parameter, behind a binding. -/
def refCalls : List (ℕ × SqliteAction) :=
  [(0, refPrepare "SELECT :v"), (0, .step 0), (0, .bind 0 [⟨.fromStr ":v", .integer 3⟩]),
    (0, .reset 0), (0, .bind 0 [⟨.fromStr ":v", .integer 4⟩, ⟨.fromStr ":w", .null⟩])]

/-- Their answers. -/
def refCallsAnswers : List SqliteAnswer :=
  [.prepare (.ok 0), .step (.ok .row),
    .bind (.error ⟨21, .fromStr "bad parameter or other API misuse"⟩), .reset (.ok ()),
    .bind (.error (bindUnknownParameter "\":w\""))]

theorem bind_ok_spec_ref : ∃ (s s' : SqliteHost ℕ RefWorld),
    runCalls refSqlite refCalls (.init .empty) = .ok (refCallsAnswers, s) ∧
    bind refSqlite 0 0 [⟨.fromStr ":v", .integer 5⟩, ⟨.fromStr ":v", .integer 7⟩] s =
      .ok (.ok (), s') ∧
    ∃ stmt p, s'.statements[0]? = some stmt ∧ stmt.stmt.lookup 0 = some p ∧
      ∀ i, i ≠ 0 → s'.world.param p i = boundTo
        [⟨.fromStr ":v", .integer 5⟩, ⟨.fromStr ":v", .integer 7⟩] (s'.world.name p i) := by
  have hanswers : (runCalls refSqlite (refCalls ++
      [(0, .bind 0 [⟨.fromStr ":v", .integer 5⟩, ⟨.fromStr ":v", .integer 7⟩])])
      (.init .empty)).map Prod.fst = .ok (refCallsAnswers ++ [.bind (.ok ())]) := by
    decide +kernel
  obtain ⟨s', hrun⟩ := exists_of_answers hanswers
  obtain ⟨s, hcalls, hact⟩ := run_concat_ok.mp hrun
  obtain ⟨r, hbind, hr⟩ := map_ok.mp hact
  cases hr
  obtain ⟨stmt, p, hbox, hp, -, hparam, -⟩ :=
    bind_ok_spec refLaws.toParameterLaws hcalls hbind
  exact ⟨s, s', hcalls, hbind, stmt, p, hbox, hp, hparam⟩

end BasicCli.Sqlite
