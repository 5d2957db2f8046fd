import BasicCli.FileSystem.Directory
import BasicCli.FileSystem.Equiv.Walk

/-!
# The path of an entry

A name that is joined to the path of a directory names the entry of the directory, and all that is
done with the path is done with this entry (`entryOf_join`, `resolve_join`).
-/

namespace BasicCli

/-! ### Components -/

/-- The components of a path without what a slash behind them says. -/
def pathNames (path : List UInt8) : List FileName := (path.splitOn 47).filter (· ≠ [])

theorem pathComponents_eq (path : List UInt8) :
    pathComponents path =
      if pathNames path ≠ [] ∧ path.getLast? = some 47 then pathNames path ++ [[46]]
      else pathNames path := rfl

theorem pathNames_append (path : List UInt8) {name : FileName} (hname : name.WellFormed) :
    pathNames (path ++ 47 :: name) = pathNames path ++ [name] := by
  rw [pathNames, List.splitOn_append_cons_self, List.filter_append,
    List.splitOn_eq_singleton hname.slash_notMem, List.filter_singleton,
    decide_eq_true hname.ne_nil]
  rfl

theorem getLast?_ne_slash {name : FileName} (hname : name.WellFormed) (path : List UInt8) :
    (path ++ name).getLast? ≠ some 47 := by
  intro h
  rw [List.getLast?_append_of_ne_nil path hname.ne_nil] at h
  exact hname.slash_notMem (List.mem_of_getLast? h)

/-- **The components of a joined path** are those of the path, and the name. -/
theorem pathComponents_join {path : List UInt8} (hpath : path ≠ []) {name : FileName}
    (hname : name.WellFormed) :
    pathComponents (pathJoin path name) = pathNames path ++ [name] := by
  have hhead : name.head? ≠ some 47 := fun h => hname.slash_notMem (List.mem_of_head? h)
  rw [pathJoin, if_neg hhead]
  by_cases hslash : path.getLast? = some 47
  · -- The path ends in a slash already.
    obtain ⟨dir, rfl⟩ := List.getLast?_eq_some_iff.mp hslash
    have hdir : pathNames (dir ++ [47]) = pathNames dir := by
      rw [pathNames, List.splitOn_append_cons_self, List.filter_append]
      exact List.append_nil _
    rw [if_pos (.inr hslash), pathComponents_eq, if_neg fun h => getLast?_ne_slash hname _ h.2,
      hdir, List.append_assoc, List.singleton_append, pathNames_append dir hname]
  · rw [if_neg fun h => h.elim hpath hslash, pathComponents_eq, if_neg, pathNames_append path hname]
    rw [List.append_cons]
    exact fun h => getLast?_ne_slash hname _ h.2

theorem join_ne_nil {path : List UInt8} {name : FileName} (hname : name.WellFormed) :
    pathJoin path name ≠ [] := by
  rw [pathJoin]
  split_ifs
  · exact hname.ne_nil
  · exact List.append_ne_nil_of_right_ne_nil path hname.ne_nil
  · simp

theorem nul_notMem_join {path : List UInt8} (hpath : 0 ∉ path) {name : FileName}
    (hname : name.WellFormed) : 0 ∉ pathJoin path name := by
  have hnul := hname.nul_notMem
  rw [pathJoin]
  split_ifs
  · exact hnul
  · simp [hpath, hnul]
  · simp [hpath, hnul]

namespace FileSystem

variable {ι : Type} {fs : FileSystem ι} {follow : Bool} {dir m n : ι} {names : List FileName}
  {name : FileName}

theorem start_join {path : List UInt8} (hpath : path ≠ []) (hname : name.WellFormed) :
    fs.start dir (pathJoin path name) = fs.start dir path := by
  have hhead : name.head? ≠ some 47 := fun h => hname.slash_notMem (List.mem_of_head? h)
  have hsame : (pathJoin path name).head? = path.head? := by
    obtain ⟨b, path, rfl⟩ := List.exists_cons_of_ne_nil hpath
    rw [pathJoin, if_neg hhead]
    split_ifs <;> rfl
  rw [start, start, hsame]

/-! ### Walks -/

/-- Behind the components that lead to a node, a walk goes on from there with the links that are
left. -/
theorem Walks.walk_append {links : ℕ} (h : fs.Walks true dir names links m) {maxLinks : ℕ}
    (hle : links ≤ maxLinks) {rest : List FileName} (hrest : rest ≠ []) :
    fs.walk follow maxLinks dir (names ++ rest) = fs.walk follow (maxLinks - links) m rest := by
  induction h generalizing maxLinks with
  | nil => rfl
  | node hlookup hstays _ ih =>
    rw [List.cons_append, walk_eq, walkWith_node hlookup hstays, ← walk_eq, ih hle]
  | last _ _ hnofollow => cases hnofollow
  | @link _ _ _ _ names links _ hlookup hlink _ _ ih =>
    obtain ⟨maxLinks, rfl⟩ := Nat.exists_eq_add_of_le' (Nat.le_trans (Nat.succ_pos _) hle)
    have hfollows : ¬ (names ++ rest = [] ∧ follow = false) :=
      fun h => hrest (List.append_eq_nil_iff.mp h.1).2
    rw [List.cons_append, walk_eq, walkWith_link hlookup hlink hfollows, ← List.append_assoc]
    show fs.walk follow maxLinks _ _ = _
    rw [ih (Nat.le_of_succ_le_succ hle), Nat.add_sub_add_right]

/-- A walk of one component that is not followed looks it up. -/
theorem walk_singleton (links : ℕ) :
    fs.walk false links dir [name] = fs.lookup dir name := by
  rw [walk_eq, walkWith]
  rcases fs.lookup dir name with e | n
  · rfl
  · rcases hnode : fs.node n with _ | _ | _ | _ <;> simp [hnode, walkWith]

/-- The way along some components is part of the way along more. -/
theorem Walks.of_append {links : ℕ} {rest : List FileName} (hrest : rest ≠ [])
    (h : fs.Walks follow dir (names ++ rest) links n) :
    ∃ links₁ links₂ m, fs.Walks true dir names links₁ m ∧ fs.Walks follow m rest links₂ n ∧
      links₁ + links₂ = links := by
  generalize hall : names ++ rest = all at h
  induction h generalizing names with
  | nil => exact absurd (List.append_eq_nil_iff.mp hall).2 hrest
  | @node dir n m name all links hlookup hstays hwalks ih =>
    cases names with
    | nil =>
      obtain rfl : rest = name :: all := hall
      exact ⟨0, links, dir, .nil, .node hlookup hstays hwalks, Nat.zero_add _⟩
    | cons name' names =>
      obtain ⟨rfl, htail⟩ := List.cons.inj hall
      obtain ⟨links₁, links₂, m, hnames, hrest, hsum⟩ := ih htail
      exact ⟨links₁, links₂, m, .node hlookup hstays hnames, hrest, hsum⟩
  | @last dir n name hlookup hlink hnofollow =>
    cases names with
    | nil =>
      obtain rfl : rest = [name] := hall
      exact ⟨0, 0, dir, .nil, .last hlookup hlink hnofollow, rfl⟩
    | cons name' names =>
      obtain ⟨-, htail⟩ := List.cons.inj hall
      exact absurd (List.append_eq_nil_iff.mp htail).2 hrest
  | @link dir n m name all links target hlookup hlink hfollows hwalks ih =>
    cases names with
    | nil =>
      obtain rfl : rest = name :: all := hall
      exact ⟨0, links + 1, dir, .nil, .link hlookup hlink hfollows hwalks, Nat.zero_add _⟩
    | cons name' names =>
      obtain ⟨rfl, htail⟩ := List.cons.inj hall
      -- The target of the link stands before the names that are left of the first part.
      have hbehind : (pathComponents target ++ names) ++ rest = pathComponents target ++ all := by
        rw [List.append_assoc]
        exact congrArg (pathComponents target ++ ·) htail
      obtain ⟨links₁, links₂, m, hnames, hrest, hsum⟩ := ih hbehind
      have hnames := Walks.link hlookup hlink (by simp) hnames
      exact ⟨links₁ + 1, links₂, m, hnames, hrest, by omega⟩

/-! ### Joined paths -/

/-- `.` is the directory itself. -/
def DotIsSelf (fs : FileSystem ι) : Prop := ∀ dir n, fs.lookup dir [46] = .ok n → n = dir

/-- Without a slash behind it, a path leads to the same directory by way of as many links. -/
theorem Reaches.walks_pathNames (hdot : fs.DotIsSelf) {path : List UInt8} {links : ℕ}
    (h : fs.Reaches true path links dir) :
    fs.Walks true (fs.start fs.cwd path) (pathNames path) links dir := by
  have hwalks := h.2.2
  rw [pathComponents_eq] at hwalks
  split_ifs at hwalks
  · obtain ⟨links₁, links₂, m, hnames, hlast, hsum⟩ := hwalks.of_append (List.cons_ne_nil _ _)
    -- The last step stays in the directory.
    have hstep : links₂ = 0 ∧ m = dir := by
      cases hlast with
      | node hlookup hstays hrest =>
        cases hrest
        exact ⟨rfl, (hdot _ _ hlookup).symm⟩
      | last _ _ hnofollow => cases hnofollow
      | link hlookup hlink _ _ =>
        rw [lookup, ← hdot _ _ hlookup, hlink] at hlookup
        cases hlookup
    obtain ⟨rfl, rfl⟩ := hstep
    rwa [← hsum]
  · exact hwalks

variable {path : List UInt8}

/-- What it takes for a path to name an entry. -/
theorem entryOf_eq_ok_iff :
    fs.entryOf path = .ok (dir, name) ↔
      0 ∉ path ∧ path ≠ [] ∧ path.length < fs.maxPath ∧
        (pathComponents path).getLast? = some name ∧
        fs.walk true fs.maxLinks (fs.start fs.cwd path) (pathComponents path).dropLast = .ok dir ∧
        (fs.node dir).isDir = true := by
  rw [entryOf]
  -- The checks in their order: the NUL byte, the empty path, the limit, the parent.
  split_ifs with hnul hnil hlong
  · exact iff_of_false nofun fun h => h.1 hnul
  · exact iff_of_false nofun fun h => h.2.1 hnil
  · exact iff_of_false nofun fun h => Nat.not_lt.mpr hlong h.2.2.1
  · rcases hlast : (pathComponents path).getLast? with _ | last
    · simp
    · rcases hwalk : fs.walk true fs.maxLinks (fs.start fs.cwd path)
        (pathComponents path).dropLast with e | d
      · simp [Except.bind]
      · rcases hnode : fs.node d with _ | entry | _ | _
        all_goals
          simp only [Except.bind, hnode, Except.ok.injEq, Prod.mk.injEq, reduceCtorEq]
        case dir =>
          constructor
          · rintro ⟨rfl, rfl⟩
            exact ⟨hnul, hnil, Nat.not_le.mp hlong, rfl, rfl, by rw [hnode]; rfl⟩
          · rintro ⟨-, -, -, hlast', hd, -⟩
            exact ⟨hd, Option.some.inj hlast'⟩
        all_goals
          refine iff_of_false not_false ?_
          rintro ⟨-, -, -, -, rfl, hdir⟩
          rw [hnode] at hdir
          cases hdir

/-- **A joined path names the entry**, if there is room for it. -/
theorem entryOf_join (hdot : fs.DotIsSelf) {links : ℕ} (h : fs.Reaches true path links dir)
    (hle : links ≤ fs.maxLinks) (hdir : (fs.node dir).isDir = true) (hname : name.WellFormed)
    (hlt : (pathJoin path name).length < fs.maxPath) :
    fs.entryOf (pathJoin path name) = .ok (dir, name) := by
  have hwalks := h.walks_pathNames hdot
  obtain ⟨hnul, hnil, -⟩ := h
  refine entryOf_eq_ok_iff.mpr ⟨nul_notMem_join hnul hname, join_ne_nil hname, hlt, ?_, ?_, hdir⟩
  · rw [pathComponents_join hnil hname, List.getLast?_concat]
  · rw [pathComponents_join hnil hname, List.dropLast_concat, start_join hnil hname]
    exact hwalks.walk_eq_ok hle

/-- **A joined path is found by way of the entry**, with the links that the path has left. -/
theorem resolve_join (hdot : fs.DotIsSelf) {links : ℕ} (h : fs.Reaches true path links dir)
    (hle : links ≤ fs.maxLinks) (hname : name.WellFormed)
    (hlt : (pathJoin path name).length < fs.maxPath) :
    fs.resolve follow (pathJoin path name) =
      fs.walk follow (fs.maxLinks - links) dir [name] := by
  have hwalks := h.walks_pathNames hdot
  obtain ⟨hnul, hnil, -⟩ := h
  rw [resolve, if_neg (nul_notMem_join hnul hname), if_neg (join_ne_nil hname),
    if_neg (Nat.not_le.mpr hlt), pathComponents_join hnil hname, start_join hnil hname]
  exact hwalks.walk_append hle (List.cons_ne_nil _ _)

end FileSystem

end BasicCli
