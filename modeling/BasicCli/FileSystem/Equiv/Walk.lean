import BasicCli.FileSystem.Basic

/-!
# Where a path leads

`Walks` says where components lead when any number of links may be followed, and `Reaches` where a
path of any length does.  The kernel finds that node if it has not had to follow too many links
(`walk_eq_ok_iff`) and has room for the path (`resolve_eq_ok_iff`).
-/

namespace BasicCli.FileSystem

variable {ι : Type} (fs : FileSystem ι)

/-- From a node, the components lead to another by way of so many links.  A link in the last place
is followed only with `follow`. -/
inductive Walks (follow : Bool) : ι → List FileName → ℕ → ι → Prop
  | nil {dir : ι} : Walks follow dir [] 0 dir
  | node {dir n m : ι} {name : FileName} {names : List FileName} {links : ℕ}
      (lookup : fs.lookup dir name = .ok n) (stays : (fs.node n).isSymlink = false)
      (rest : Walks follow n names links m) : Walks follow dir (name :: names) links m
  | last {dir n : ι} {name : FileName} (lookup : fs.lookup dir name = .ok n)
      (link : (fs.node n).isSymlink = true) (nofollow : follow = false) :
      Walks follow dir [name] 0 n
  | link {dir n m : ι} {name : FileName} {names : List FileName} {links : ℕ} {target : List UInt8}
      (lookup : fs.lookup dir name = .ok n) (link : fs.node n = .symlink target)
      (follows : ¬ (names = [] ∧ follow = false))
      (rest : Walks follow (fs.start dir target) (pathComponents target ++ names) links m) :
      Walks follow dir (name :: names) (links + 1) m

/-- Without its last component followed unless `follow`, the path leads to a node by way of so many
links. -/
def Reaches (follow : Bool) (path : List UInt8) (links : ℕ) (n : ι) : Prop :=
  0 ∉ path ∧ path ≠ [] ∧ fs.Walks follow (fs.start fs.cwd path) (pathComponents path) links n

/-- Following all links, the path leads to a node. -/
def LeadsTo (path : List UInt8) (n : ι) : Prop := ∃ links, fs.Reaches true path links n

/-- The path itself is a link. -/
def IsLink (path : List UInt8) : Prop :=
  ∃ links n, fs.Reaches false path links n ∧ (fs.node n).isSymlink = true

variable {fs} {follow : Bool} {dir n m : ι} {name : FileName} {names : List FileName}

/-! ### The steps of a walk -/

section

variable {expand : ι → List FileName → Except IoError ι}

theorem walkWith_node (hlookup : fs.lookup dir name = .ok n)
    (hstays : (fs.node n).isSymlink = false) :
    fs.walkWith follow expand dir (name :: names) = fs.walkWith follow expand n names := by
  rw [walkWith, hlookup]
  dsimp only
  rcases hnode : fs.node n with _ | _ | target | _
  · rfl
  · rfl
  · rw [hnode] at hstays
    cases hstays
  · rfl

theorem walkWith_last (hlookup : fs.lookup dir name = .ok n)
    (hlink : (fs.node n).isSymlink = true) :
    fs.walkWith false expand dir [name] = .ok n := by
  obtain ⟨target, hnode⟩ := Node.eq_symlink hlink
  rw [walkWith, hlookup]
  dsimp only
  rw [hnode]
  exact if_pos ⟨rfl, rfl⟩

theorem walkWith_link {target : List UInt8} (hlookup : fs.lookup dir name = .ok n)
    (hlink : fs.node n = .symlink target) (hfollows : ¬ (names = [] ∧ follow = false)) :
    fs.walkWith follow expand dir (name :: names) =
      expand (fs.start dir target) (pathComponents target ++ names) := by
  rw [walkWith, hlookup]
  dsimp only
  rw [hlink]
  exact if_neg hfollows

end

/-- One level of the walk is unfolded, whatever the number of links. -/
theorem walk_eq (links : ℕ) :
    fs.walk follow links = fs.walkWith follow (match links with
      | 0 => fun _ _ => .error tooManyLinks
      | links + 1 => fs.walk follow links) := by
  cases links with
  | zero => rfl
  | succ links => rfl

/-! ### Walks of the kernel -/

/-- A walk finds what it should, if it may follow as many links. -/
theorem Walks.walk_eq_ok {links : ℕ} (h : fs.Walks follow dir names links n) {maxLinks : ℕ}
    (hle : links ≤ maxLinks) : fs.walk follow maxLinks dir names = .ok n := by
  -- On the way; only a link that is followed takes one from the number.
  induction h generalizing maxLinks with
  | nil =>
    rw [walk_eq, walkWith]
  | node hlookup hstays _ ih =>
    rw [walk_eq, walkWith_node hlookup hstays, ← walk_eq, ih hle]
  | last hlookup hlink hnofollow =>
    subst hnofollow
    rw [walk_eq, walkWith_last hlookup hlink]
  | link hlookup hlink hfollows _ ih =>
    obtain ⟨maxLinks, rfl⟩ := Nat.exists_eq_add_of_le' (Nat.le_trans (Nat.succ_pos _) hle)
    rw [walk_eq, walkWith_link hlookup hlink hfollows]
    exact ih (Nat.le_of_succ_le_succ hle)

theorem walks_of_walkWith {expand : ι → List FileName → Except IoError ι} {bound : ℕ}
    (hexpand : ∀ dir names m, expand dir names = .ok m →
      ∃ links < bound, fs.Walks follow dir names links m)
    (h : fs.walkWith follow expand dir names = .ok n) :
    ∃ links ≤ bound, fs.Walks follow dir names links n := by
  -- On the components up to the first link that is followed, where `expand` takes over.
  induction names generalizing dir with
  | nil =>
    cases h
    exact ⟨0, Nat.zero_le _, .nil⟩
  | cons name names ih =>
    rcases hlookup : fs.lookup dir name with e | m
    · rw [walkWith, hlookup] at h
      cases h
    rcases hlink : (fs.node m).isSymlink with _ | _
    · rw [walkWith_node hlookup hlink] at h
      obtain ⟨links, hle, hrest⟩ := ih h
      exact ⟨links, hle, .node hlookup hlink hrest⟩
    · by_cases hlast : names = [] ∧ follow = false
      · obtain ⟨rfl, rfl⟩ := hlast
        rw [walkWith_last hlookup hlink] at h
        cases h
        exact ⟨0, Nat.zero_le _, .last hlookup hlink rfl⟩
      · obtain ⟨target, hnode⟩ := Node.eq_symlink hlink
        rw [walkWith_link hlookup hnode hlast] at h
        obtain ⟨links, hlt, hrest⟩ := hexpand _ _ _ h
        exact ⟨links + 1, hlt, .link hlookup hnode hlast hrest⟩

/-- What a walk finds is where the components lead. -/
theorem walks_of_walk {maxLinks : ℕ} (h : fs.walk follow maxLinks dir names = .ok n) :
    ∃ links ≤ maxLinks, fs.Walks follow dir names links n := by
  induction maxLinks generalizing dir names n with
  | zero => exact walks_of_walkWith (fun _ _ _ herror => by cases herror) h
  | succ maxLinks ih =>
    refine walks_of_walkWith (fun _ _ _ hwalk => ?_) h
    obtain ⟨links, hle, hrest⟩ := ih hwalk
    exact ⟨links, Nat.lt_succ_of_le hle, hrest⟩

/-- **The kernel goes where the components lead**, up to the number of links. -/
theorem walk_eq_ok_iff {maxLinks : ℕ} :
    fs.walk follow maxLinks dir names = .ok n ↔
      ∃ links ≤ maxLinks, fs.Walks follow dir names links n := by
  constructor
  · exact walks_of_walk
  · rintro ⟨links, hle, h⟩
    exact h.walk_eq_ok hle

/-! ### One way -/

/-- Components lead one way only. -/
theorem Walks.unique {links links' : ℕ} {n' : ι} (h : fs.Walks follow dir names links n)
    (h' : fs.Walks follow dir names links' n') : links = links' ∧ n = n' := by
  -- A lookup has one answer, so both walks take the same rule at every name.
  induction h generalizing links' with
  | nil =>
    cases h'
    exact ⟨rfl, rfl⟩
  | node hlookup hstays _ ih =>
    cases h' with
    | node hlookup' _ hrest' =>
      obtain rfl := Except.ok.inj (hlookup.symm.trans hlookup')
      exact ih hrest'
    | last hlookup' hlink' _ =>
      obtain rfl := Except.ok.inj (hlookup.symm.trans hlookup')
      rw [hstays] at hlink'
      cases hlink'
    | link hlookup' hlink' _ _ =>
      obtain rfl := Except.ok.inj (hlookup.symm.trans hlookup')
      rw [hlink'] at hstays
      cases hstays
  | last hlookup hlink hnofollow =>
    cases h' with
    | node hlookup' hstays' _ =>
      obtain rfl := Except.ok.inj (hlookup.symm.trans hlookup')
      rw [hlink] at hstays'
      cases hstays'
    | last hlookup' _ _ => exact ⟨rfl, Except.ok.inj (hlookup.symm.trans hlookup')⟩
    | link _ _ hfollows' _ => exact absurd ⟨rfl, hnofollow⟩ hfollows'
  | link hlookup hlink hfollows _ ih =>
    cases h' with
    | node hlookup' hstays' _ =>
      obtain rfl := Except.ok.inj (hlookup.symm.trans hlookup')
      rw [hlink] at hstays'
      cases hstays'
    | last _ _ hnofollow' => exact absurd ⟨rfl, hnofollow'⟩ hfollows
    | link hlookup' hlink' _ hrest' =>
      obtain rfl := Except.ok.inj (hlookup.symm.trans hlookup')
      obtain rfl := Node.symlink.inj (hlink.symm.trans hlink')
      obtain ⟨hlinks, hn⟩ := ih hrest'
      exact ⟨congrArg (· + 1) hlinks, hn⟩

/-! ### The last component -/

/-- Where no link is in the last place, following it makes no difference. -/
theorem Walks.of_stays {links : ℕ} (h : fs.Walks false dir names links n)
    (hn : (fs.node n).isSymlink = false) : fs.Walks true dir names links n := by
  induction h with
  | nil => exact .nil
  | node hlookup hstays _ ih => exact .node hlookup hstays (ih hn)
  | last hlookup hlink _ =>
    rw [hn] at hlink
    cases hlink
  | link hlookup hlink _ _ ih => exact .link hlookup hlink (by simp) (ih hn)

/-- On the way to where a path leads, one comes to its last component, which is that node or a
link. -/
theorem Walks.nofollow {links : ℕ} (h : fs.Walks true dir names links m) :
    ∃ links' n, fs.Walks false dir names links' n ∧ ((fs.node n).isSymlink = false → n = m) := by
  induction h with
  | nil => exact ⟨0, _, .nil, fun _ => rfl⟩
  | node hlookup hstays _ ih =>
    obtain ⟨links', n, hrest, hn⟩ := ih
    exact ⟨links', n, .node hlookup hstays hrest, hn⟩
  | last _ _ hnofollow => cases hnofollow
  | @link dir n m name names links target hlookup hlink _ _ ih =>
    have hsymlink : (fs.node n).isSymlink = true := by rw [hlink, Node.isSymlink]
    by_cases hlast : names = []
    · -- This is the last component, and the rest of the way is behind it.
      subst hlast
      exact ⟨0, n, .last hlookup hsymlink rfl, fun hn => absurd hsymlink (by rw [hn]; decide)⟩
    · obtain ⟨links', n', hrest, hn⟩ := ih
      exact ⟨links' + 1, n', .link hlookup hlink (fun h => hlast h.1) hrest, hn⟩

/-! ### Paths -/

/-- **The kernel finds where a path leads** iff the path is not too long and the links on the way
are not too many. -/
theorem resolve_eq_ok_iff {path : List UInt8} :
    fs.resolve follow path = .ok n ↔
      path.length < fs.maxPath ∧ ∃ links ≤ fs.maxLinks, fs.Reaches follow path links n := by
  rw [resolve]
  split_ifs with hnul hempty hlong
  · simp [Reaches, hnul]
  · simp [Reaches, hempty]
  · simp [Nat.not_lt.mpr hlong]
  · simp [Reaches, hnul, hempty, walk_eq_ok_iff, Nat.not_le.mp hlong]

theorem Reaches.unique {path : List UInt8} {links links' : ℕ} {n' : ι}
    (h : fs.Reaches follow path links n) (h' : fs.Reaches follow path links' n') :
    links = links' ∧ n = n' :=
  h.2.2.unique h'.2.2

theorem Reaches.leadsTo {path : List UInt8} {links : ℕ} (h : fs.Reaches false path links n)
    (hn : (fs.node n).isSymlink = false) : fs.LeadsTo path n :=
  ⟨links, h.1, h.2.1, h.2.2.of_stays hn⟩

theorem LeadsTo.reaches {path : List UInt8} (h : fs.LeadsTo path m) :
    ∃ links n, fs.Reaches false path links n ∧ ((fs.node n).isSymlink = false → n = m) := by
  obtain ⟨_, hnul, hempty, hwalks⟩ := h
  obtain ⟨links, n, hlast, hn⟩ := hwalks.nofollow
  exact ⟨links, n, ⟨hnul, hempty, hlast⟩, hn⟩

end BasicCli.FileSystem
