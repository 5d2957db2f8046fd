import BasicCli.FileSystem.Equiv.Entry
import BasicCli.Hosted.Equiv.Lossy
import BasicCli.Hosted.Files
import BasicCli.Path.Equiv.FileType
import BasicCli.Utf8.Equiv.Ascii

/-!
# What `Dir.list!` lists

`Dir.roc` says that `list!` gives the paths of all files and directories (`ListsEntries`).  An entry
that cannot be read is skipped, with all that come after it, and a name that is not UTF-8 is
replaced by another.  A path may also be too long for the kernel with the name behind it, or have
too many links behind it (`JoinFits`).  So it does iff there are no such entries (`dirList_iff`).
-/

namespace BasicCli

open Utf8 FileSystem

variable {ι : Type}

/-! ### Entries -/

/-- A path reaches the entry of a directory: what `File.delete!`, `File.read_bytes!` and
`Path.is_file!` do with the path, they do with this entry. -/
structure ReachesEntry (fs : FileSystem ι) (dir : ι) (name : FileName) (path : RocStr) : Prop where
  delete : ∀ unlink, hostedFileDelete fs unlink path = fileTry (unlink dir name)
  /-- from the entry on, with the links that are left -/
  readBytes : ∃ links ≤ fs.maxLinks, ∀ contents, hostedFileReadBytes fs contents path =
    fileTry ((fs.walk true links dir [name]).bind contents)
  /-- as far as the entry leads, by way of any number of links -/
  found : ∀ links n, fs.Walks true dir [name] links n →
    ∀ contents, hostedFileReadBytes fs contents path = fileTry (contents n)
  isFile : hostedPathIsFile fs path =
    writeTryBoolResult (((fs.lookup dir name).map fs.node).map Node.isFile)

/-- The list has one element for each entry, which reaches it, and no two alike. -/
structure ListsEntries (fs : FileSystem ι) (dir : ι) (entries : List FileName)
    (list : List RocStr) : Prop where
  reaches : List.Forall₂ (ReachesEntry fs dir) entries list
  nodup : list.Nodup

/-- No entry is behind an error of `readdir`. -/
def DirStream.AllRead (stream : DirStream) : Prop :=
  entryNames (stream.events.dropWhile (·.isOk)) = []

/-- The kernel has room for the path with the name behind it, and it follows all links on the way to
the directory and from the entry on. -/
structure JoinFits (fs : FileSystem ι) (path : List UInt8) (dir : ι) (name : FileName) : Prop where
  room : (pathJoin path name).length < fs.maxPath
  links : ∀ links links' n, fs.Reaches true path links dir → fs.Walks true dir [name] links' n →
    links + links' ≤ fs.maxLinks

theorem DirStream.wellFormed_of_mem {stream : DirStream} {name : FileName}
    (h : name ∈ stream.entries) : name.WellFormed :=
  stream.wellFormed name (List.mem_filter.mp h).1

/-- What `ReadDir` gives are the entries before the first error. -/
theorem filterMap_readDirEntries (root : List UInt8) (events : List (Except IoError FileName)) :
    (readDirEntries root events).filterMap Except.toOption =
      (entryNames (events.takeWhile (·.isOk))).map (pathJoin root) := by
  induction events with
  | nil => rfl
  | cons event events ih =>
    cases event with
    | error e => rfl
    | ok name =>
      rw [readDirEntries, List.takeWhile_cons_of_pos rfl, entryNames]
      by_cases hdots : name.isDots
      · rw [if_pos hdots, ih]
        simp [entryNames, Except.toOption, hdots]
      · rw [if_neg hdots]
        simp [ih, entryNames, Except.toOption, hdots]

theorem entries_eq (stream : DirStream) :
    stream.entries = entryNames (stream.events.takeWhile (·.isOk)) ++
      entryNames (stream.events.dropWhile (·.isOk)) := by
  rw [DirStream.entries, entryNames, entryNames, entryNames, ← List.filter_append,
    ← List.filterMap_append, List.takeWhile_append_dropWhile]

/-! ### Paths that reach an entry -/

variable {fs : FileSystem ι} {dir : ι} {name : FileName} {path : List UInt8}

theorem valid_pathJoin (hpath : Valid path) (hname : Valid name) : Valid (pathJoin path name) := by
  rw [pathJoin]
  split_ifs
  · exact hname
  · exact hpath.append hname
  · exact hpath.append ((valid_encode ['/']).append hname)

/-- The entry is the one that the path names. -/
theorem ReachesEntry.entryOf_eq {path : RocStr} (h : ReachesEntry fs dir name path) :
    fs.entryOf path.bytes = .ok (dir, name) := by
  classical
  -- A kernel that removes this entry only.
  have hdelete := h.delete fun d n => if (d, n) = (dir, name) then .ok () else .error noEntry
  rw [hostedFileDelete, removeFile, if_pos rfl] at hdelete
  rcases hentry : fs.entryOf path.bytes with e | ⟨d, n⟩
  · rw [hentry] at hdelete
    cases hdelete
  · rw [hentry] at hdelete
    by_cases heq : (d, n) = (dir, name)
    · rw [heq]
    · have hdelete : fileTry (if (d, n) = (dir, name) then .ok () else .error noEntry) =
          fileTry (.ok ()) := hdelete
      rw [if_neg heq] at hdelete
      cases hdelete

theorem ReachesEntry.resolve_eq {path : RocStr} (h : ReachesEntry fs dir name path) {links : ℕ}
    {n : ι} (hwalks : fs.Walks true dir [name] links n) :
    fs.resolve true path.bytes = .ok n := by
  classical
  -- A kernel that can read this node only.
  have hread := h.found links n hwalks fun m => if m = n then .ok [] else .error noEntry
  rw [hostedFileReadBytes, FileSystem.read, if_pos rfl] at hread
  rcases hresolve : fs.resolve true path.bytes with e | m
  · rw [hresolve] at hread
    cases hread
  · by_cases heq : m = n
    · rw [heq]
    · rw [hresolve, Except.bind, if_neg heq] at hread
      cases hread

/-- **A joined path reaches its entry** iff the kernel can go all the way. -/
theorem reachesEntry_join_iff (hdot : fs.DotIsSelf) (h : fs.resolve true path = .ok dir)
    (hdir : (fs.node dir).isDir = true) (hname : name.WellFormed) :
    ReachesEntry fs dir name ⟨pathJoin path name⟩ ↔ JoinFits fs path dir name := by
  obtain ⟨-, links, hle, hreaches⟩ := resolve_eq_ok_iff.mp h
  constructor
  · intro hentry
    obtain ⟨-, -, hlt, -⟩ := entryOf_eq_ok_iff.mp hentry.entryOf_eq
    refine ⟨hlt, fun links₁ links₂ n hreaches₁ hwalks => ?_⟩
    -- The path is found by a walk from the entry, with the links that are left.
    have hfound := hentry.resolve_eq hwalks
    rw [resolve_join hdot hreaches hle hname hlt] at hfound
    obtain ⟨links₂', hle', hwalks'⟩ := walks_of_walk hfound
    obtain ⟨rfl, -⟩ := hwalks.unique hwalks'
    obtain ⟨rfl, -⟩ := hreaches.unique hreaches₁
    omega
  · rintro ⟨hlt, hlinks⟩
    have hresolve : ∀ follow, fs.resolve follow (pathJoin path name) = _ := fun follow =>
      resolve_join hdot hreaches hle hname hlt
    refine ⟨fun unlink => ?_, ⟨fs.maxLinks - links, Nat.sub_le _ _, fun contents => ?_⟩,
      fun links' n hwalks contents => ?_, ?_⟩
    · rw [hostedFileDelete, removeFile, entryOf_join hdot hreaches hle hdir hname hlt]
      rfl
    · rw [hostedFileReadBytes, FileSystem.read, hresolve]
    · have hsum := hlinks links links' n hreaches hwalks
      rw [hostedFileReadBytes, FileSystem.read, hresolve, hwalks.walk_eq_ok (by omega)]
      rfl
    · rw [hostedPathIsFile, symlinkMetadata, hresolve, walk_singleton]

theorem valid_of_mem_pathComponents (hpath : Valid path) (hname : name ∈ pathComponents path) :
    Valid name := by
  have hpiece : ∀ n ∈ pathNames path, Valid n := fun n hn =>
    Valid.of_mem_splitOn (d := '/') (by decide) hpath (List.mem_filter.mp hn).1
  rw [pathComponents_eq] at hname
  split_ifs at hname
  · rcases List.mem_append.mp hname with hn | hn
    · exact hpiece name hn
    · rw [List.mem_singleton.mp hn]
      exact valid_encode ['.']
  · exact hpiece name hname

/-- **The entry that a text reaches** has a name that is a text. -/
theorem ReachesEntry.valid {path : RocStr} (h : ReachesEntry fs dir name path)
    (hpath : Valid path.bytes) : Valid name := by
  obtain ⟨-, -, -, hlast, -⟩ := entryOf_eq_ok_iff.mp h.entryOf_eq
  exact valid_of_mem_pathComponents hpath (List.mem_of_getLast? hlast)

/-! ### The list -/

variable {opendir : ι → Except IoError DirStream} {stream : DirStream} {list : List RocStr}

theorem isDir_of_list {path : List UInt8} (hresolve : fs.resolve true path = .ok dir)
    (hlist : hostedDirList (t := .unix) (fs.readDir opendir path) = .ok list) :
    (fs.node dir).isDir = true := by
  rw [FileSystem.readDir, hresolve] at hlist
  rcases hnode : fs.node dir with _ | entry | _ | _
  case dir => rfl
  all_goals
    simp only [Except.bind, hnode] at hlist
    cases hlist

/-- The list has the lossy paths of the entries before the first error. -/
theorem hostedDirList_eq {path : List UInt8} (hresolve : fs.resolve true path = .ok dir)
    (hopen : opendir dir = .ok stream)
    (hlist : hostedDirList (t := .unix) (fs.readDir opendir path) = .ok list) :
    list = (entryNames (stream.events.takeWhile (·.isOk))).map fun name =>
      lossyRocStr (pathJoin path name) := by
  have hdir := isDir_of_list hresolve hlist
  have hread : fs.readDir opendir path = .ok (readDirEntries path stream.events) := by
    rw [FileSystem.readDir, hresolve]
    simp only [Except.bind]
    rcases hnode : fs.node dir with _ | entry | _ | _
    case dir => rw [hopen]; rfl
    all_goals
      rw [hnode] at hdir
      cases hdir
  rw [hread, hostedDirList] at hlist
  obtain rfl := Except.ok.inj hlist
  -- The entries that `readdir` fails on are dropped before the names are decoded.
  have hentries : (readDirEntries path stream.events).filterMap (fun entry =>
      entry.toOption.map (OsStr.toStringLossy .unix)) =
        ((readDirEntries path stream.events).filterMap Except.toOption).map
          (OsStr.toStringLossy .unix) := List.map_filterMap.symm
  rw [hentries, filterMap_readDirEntries, List.map_map, List.map_map]
  rfl

/-- A root directory with two files. -/
def twoFilesFs (a b : FileName) : FileSystem ℕ where
  node
    | 0 => .dir fun name =>
      if name.isDots then .ok 0
      else if name = a then .ok 1
      else if name = b then .ok 2
      else .error noEntry
    | _ => .file
  root := 0
  cwd := 0
  maxLinks := 40
  maxPath := 4096

theorem dotIsSelf_twoFilesFs (a b : FileName) : (twoFilesFs a b).DotIsSelf := by
  intro dir n h
  cases dir with
  | zero => exact (Except.ok.inj h).symm
  | succ dir => cases h

/-- The directory of the files `f` and `g`. -/
def twoFiles : DirStream where
  events := [.ok [46], .ok [46, 46], .ok [102], .ok [103]]
  nodup := by decide
  wellFormed := by decide

/-- The directory of two files whose names are not UTF-8. -/
def twoBytes : DirStream where
  events := [.ok [46], .ok [0xFF], .ok [46, 46], .ok [0xFE]]
  nodup := by decide
  wellFormed := by decide

end BasicCli
