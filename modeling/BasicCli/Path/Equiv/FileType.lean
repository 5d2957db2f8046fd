import BasicCli.FileSystem.Equiv.Walk
import BasicCli.Path.FileType

/-!
# What `Path.is_file!` and `Path.is_dir!` tell of links

`Path.roc` says that `is_file!` and `is_dir!` traverse symbolic links and `is_sym_link!` does not
(`FileTypesMeet`).  All three ask `symlink_metadata`, so the first two are right just where
following the last component makes no difference (`fileTypesMeet_iff`).
-/

namespace BasicCli

variable {ι : Type} {fs : FileSystem ι} {path : RocStr}

/-- What `Path.roc` says of a path. -/
structure FileTypesMeet (fs : FileSystem ι) (path : RocStr) : Prop where
  isFile : hostedPathIsFile fs path = .ok true ↔
    ∃ n, fs.LeadsTo path.bytes n ∧ (fs.node n).isFile = true
  isDir : hostedPathIsDir fs path = .ok true ↔
    ∃ n, fs.LeadsTo path.bytes n ∧ (fs.node n).isDir = true
  /-- a link that leads nowhere -/
  broken : fs.IsLink path.bytes → ¬ (∃ n, fs.LeadsTo path.bytes n) →
    hostedPathIsFile fs path = .ok false ∧ hostedPathIsDir fs path = .ok false
  isSymLink : hostedPathIsSymLink fs path = .ok true ↔ fs.IsLink path.bytes

/-- The answer of the three functions, by the part of the metadata they look at. -/
theorem writeTryBoolResult_eq_ok_iff {f : Node ι → Bool} {value : Bool} :
    writeTryBoolResult ((symlinkMetadata fs path).map f) = .ok value ↔
      path.bytes.length < fs.maxPath ∧ ∃ links ≤ fs.maxLinks, ∃ n,
        fs.Reaches false path.bytes links n ∧ f (fs.node n) = value := by
  have hresolve : ∀ n, fs.resolve false path.bytes = .ok n ↔ _ := fun n =>
    FileSystem.resolve_eq_ok_iff
  rw [symlinkMetadata]
  rcases h : fs.resolve false path.bytes with e | n
  · constructor
    · intro herror
      cases herror
    · rintro ⟨hlt, links, hle, n, hreaches, -⟩
      rw [(hresolve n).mpr ⟨hlt, links, hle, hreaches⟩] at h
      cases h
  · obtain ⟨hlt, links, hle, hreaches⟩ := (hresolve n).mp h
    constructor
    · rintro ⟨⟩
      exact ⟨hlt, links, hle, n, hreaches, rfl⟩
    · rintro ⟨-, links', hle', n', hreaches', rfl⟩
      rw [(hreaches.unique hreaches').2]
      rfl

/-- Following the last component of the path does not lead to a file or a directory, and if the path
names anything but a device or the like, the kernel has room for it and follows all links on the way
to it. -/
structure NothingToFollow (fs : FileSystem ι) (path : RocStr) : Prop where
  link : fs.IsLink path.bytes → ∀ m, fs.LeadsTo path.bytes m →
    (fs.node m).isFile = false ∧ (fs.node m).isDir = false
  found : ∀ links n, fs.Reaches false path.bytes links n → fs.node n ≠ .other →
    path.bytes.length < fs.maxPath ∧ links ≤ fs.maxLinks

/-- Where there is no link to follow, one finds what following would find. -/
theorem NothingToFollow.reaches_iff (h : NothingToFollow fs path) {f : Node ι → Bool}
    (hf : ∀ node, f node = true → node.isSymlink = false ∧ node ≠ .other)
    (hlink : fs.IsLink path.bytes → ∀ m, fs.LeadsTo path.bytes m → f (fs.node m) = false) :
    (path.bytes.length < fs.maxPath ∧ ∃ links ≤ fs.maxLinks, ∃ n,
        fs.Reaches false path.bytes links n ∧ f (fs.node n) = true) ↔
      ∃ n, fs.LeadsTo path.bytes n ∧ f (fs.node n) = true := by
  constructor
  · rintro ⟨-, links, -, n, hreaches, hn⟩
    exact ⟨n, hreaches.leadsTo (hf _ hn).1, hn⟩
  · rintro ⟨m, hleads, hm⟩
    obtain ⟨links, n, hreaches, hn⟩ := hleads.reaches
    -- The path leads on from a link, which is then neither a file nor a directory.
    rcases hsymlink : (fs.node n).isSymlink with _ | _
    · obtain rfl := hn hsymlink
      obtain ⟨hlt, hle⟩ := h.found links n hreaches (hf _ hm).2
      exact ⟨hlt, links, hle, n, hreaches, hm⟩
    · have hfalse := hlink ⟨links, n, hreaches, hsymlink⟩ m hleads
      rw [hm] at hfalse
      cases hfalse

theorem Node.of_isFile {node : Node ι} (h : node.isFile = true) :
    node.isSymlink = false ∧ node ≠ .other := by
  cases node with
  | file => exact ⟨rfl, by simp⟩
  | dir _ | symlink _ | other => cases h

theorem Node.of_isDir {node : Node ι} (h : node.isDir = true) :
    node.isSymlink = false ∧ node ≠ .other := by
  cases node with
  | dir _ => exact ⟨rfl, by simp⟩
  | file | symlink _ | other => cases h

theorem NothingToFollow.meet (h : NothingToFollow fs path) : FileTypesMeet fs path where
  isFile := by
    rw [hostedPathIsFile, writeTryBoolResult_eq_ok_iff]
    exact h.reaches_iff (fun _ => Node.of_isFile) fun hlink m hm => (h.link hlink m hm).1
  isDir := by
    rw [hostedPathIsDir, writeTryBoolResult_eq_ok_iff]
    exact h.reaches_iff (fun _ => Node.of_isDir) fun hlink m hm => (h.link hlink m hm).2
  broken := by
    -- A link is neither, and both functions answer `false` for it.
    rintro ⟨links, n, hreaches, hsymlink⟩ -
    obtain ⟨target, hnode⟩ := Node.eq_symlink hsymlink
    obtain ⟨hlt, hle⟩ := h.found links n hreaches (by rw [hnode]; simp)
    rw [hostedPathIsFile, hostedPathIsDir, writeTryBoolResult_eq_ok_iff,
      writeTryBoolResult_eq_ok_iff]
    exact ⟨⟨hlt, links, hle, n, hreaches, by rw [hnode]; rfl⟩,
      ⟨hlt, links, hle, n, hreaches, by rw [hnode]; rfl⟩⟩
  isSymLink := by
    rw [hostedPathIsSymLink, writeTryBoolResult_eq_ok_iff]
    constructor
    · rintro ⟨-, links, -, n, hreaches, hsymlink⟩
      exact ⟨links, n, hreaches, hsymlink⟩
    · rintro ⟨links, n, hreaches, hsymlink⟩
      obtain ⟨target, hnode⟩ := Node.eq_symlink hsymlink
      obtain ⟨hlt, hle⟩ := h.found links n hreaches (by rw [hnode]; simp)
      exact ⟨hlt, links, hle, n, hreaches, hsymlink⟩

/-- What the path names is found by one of the functions, unless it is a device or the like. -/
theorem FileTypesMeet.exists_reaches (h : FileTypesMeet fs path) {links : ℕ} {n : ι}
    (hreaches : fs.Reaches false path.bytes links n) (hother : fs.node n ≠ .other) :
    path.bytes.length < fs.maxPath ∧
      ∃ links' ≤ fs.maxLinks, ∃ n', fs.Reaches false path.bytes links' n' := by
  -- Each kind of node has the function that must answer `true` for it, so the path is found.
  rcases hnode : fs.node n with _ | entry | target | _
  · have hn : (fs.node n).isFile = true := by rw [hnode, Node.isFile]
    have htrue := h.isFile.mpr ⟨n, hreaches.leadsTo (Node.of_isFile hn).1, hn⟩
    rw [hostedPathIsFile, writeTryBoolResult_eq_ok_iff] at htrue
    obtain ⟨hlt, links', hle, n', hreaches', -⟩ := htrue
    exact ⟨hlt, links', hle, n', hreaches'⟩
  · have hn : (fs.node n).isDir = true := by rw [hnode, Node.isDir]
    have htrue := h.isDir.mpr ⟨n, hreaches.leadsTo (Node.of_isDir hn).1, hn⟩
    rw [hostedPathIsDir, writeTryBoolResult_eq_ok_iff] at htrue
    obtain ⟨hlt, links', hle, n', hreaches', -⟩ := htrue
    exact ⟨hlt, links', hle, n', hreaches'⟩
  · have hn : (fs.node n).isSymlink = true := by rw [hnode, Node.isSymlink]
    have htrue := h.isSymLink.mpr ⟨links, n, hreaches, hn⟩
    rw [hostedPathIsSymLink, writeTryBoolResult_eq_ok_iff] at htrue
    obtain ⟨hlt, links', hle, n', hreaches', -⟩ := htrue
    exact ⟨hlt, links', hle, n', hreaches'⟩
  · exact absurd hnode hother

theorem FileTypesMeet.nothingToFollow (h : FileTypesMeet fs path) : NothingToFollow fs path := by
  have hfile := h.isFile
  have hdir := h.isDir
  rw [hostedPathIsFile, writeTryBoolResult_eq_ok_iff] at hfile
  rw [hostedPathIsDir, writeTryBoolResult_eq_ok_iff] at hdir
  constructor
  · rintro ⟨links, n, hreaches, hsymlink⟩ m hleads
    -- The functions have looked at the link, which is neither.
    constructor
    · rw [Bool.eq_false_iff]
      intro hm
      obtain ⟨-, _, -, n', hreaches', hn'⟩ := hfile.mpr ⟨m, hleads, hm⟩
      rw [(hreaches.unique hreaches').2, (Node.of_isFile hn').1] at hsymlink
      cases hsymlink
    · rw [Bool.eq_false_iff]
      intro hm
      obtain ⟨-, _, -, n', hreaches', hn'⟩ := hdir.mpr ⟨m, hleads, hm⟩
      rw [(hreaches.unique hreaches').2, (Node.of_isDir hn').1] at hsymlink
      cases hsymlink
  · intro links n hreaches hother
    obtain ⟨hlt, links', hle, n', hreaches'⟩ := h.exists_reaches hreaches hother
    rw [(hreaches.unique hreaches').1]
    exact ⟨hlt, hle⟩

/-- **The three functions answer as documented iff there is no link to follow.** -/
theorem fileTypesMeet_iff (fs : FileSystem ι) (path : RocStr) :
    FileTypesMeet fs path ↔ NothingToFollow fs path :=
  ⟨FileTypesMeet.nothingToFollow, NothingToFollow.meet⟩

/-- A file `f` and a link `l` to it. -/
def linkFs : FileSystem ℕ where
  node
    | 0 => .dir fun name =>
      if name = strBytes "." ∨ name = strBytes ".." then .ok 0
      else if name = strBytes "f" then .ok 1
      else if name = strBytes "l" then .ok 2
      else .error noEntry
    | 1 => .file
    | 2 => .symlink (strBytes "f")
    | _ => .other
  root := 0
  cwd := 0
  maxLinks := 40
  maxPath := 4096

/-- A link to a file is told to be none. -/
theorem not_fileTypesMeet_link : ¬ FileTypesMeet linkFs (.fromStr "/l") := by
  intro h
  have hleads : ∃ n, linkFs.LeadsTo (strBytes "/l") n ∧ (linkFs.node n).isFile = true := by
    have hresolve : linkFs.resolve true (strBytes "/l") = .ok 1 := by decide
    obtain ⟨-, links, -, hreaches⟩ := FileSystem.resolve_eq_ok_iff.mp hresolve
    exact ⟨1, ⟨links, hreaches⟩, rfl⟩
  have hfalse : hostedPathIsFile linkFs (.fromStr "/l") = .ok false := by
    have hresolve : linkFs.resolve false (strBytes "/l") = .ok 2 := by decide
    show writeTryBoolResult (((linkFs.resolve false (strBytes "/l")).map linkFs.node).map _) = _
    rw [hresolve]
    rfl
  have htrue := h.isFile.mpr hleads
  rw [hfalse] at htrue
  cases htrue

end BasicCli
