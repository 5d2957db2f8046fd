import BasicCli.FileSystem.Basic

/-!
# The entries of directories

Reading a directory, and what is done with a single entry of one: a path names an entry by the
directory of its last component and that component itself.
-/

namespace BasicCli

/-- `EISDIR` -/
def isADirectory : IoError := ⟨.isADirectory, "Is a directory (os error 21)"⟩

/-! ### Directories -/

/-- What an entry of a directory may be named. -/
structure FileName.WellFormed (name : FileName) : Prop where
  ne_nil : name ≠ []
  slash_notMem : 47 ∉ name
  nul_notMem : 0 ∉ name

instance (name : FileName) : Decidable name.WellFormed :=
  decidable_of_iff (name ≠ [] ∧ 47 ∉ name ∧ 0 ∉ name)
    ⟨fun ⟨hne, hslash, hnul⟩ => ⟨hne, hslash, hnul⟩, fun ⟨hne, hslash, hnul⟩ => ⟨hne, hslash, hnul⟩⟩

/-- What `readdir` answers, one time after the other, until the end of the directory is reached: the
name of an entry, each of them once, or an error. -/
structure DirStream where
  events : List (Except IoError FileName)
  nodup : (events.filterMap Except.toOption).Nodup
  wellFormed : ∀ name ∈ events.filterMap Except.toOption, name.WellFormed

/-- `.` and `..` -/
def FileName.isDots (name : FileName) : Bool := name = [46] ∨ name = [46, 46]

/-- The entries among some answers of `readdir`. -/
def entryNames (events : List (Except IoError FileName)) : List FileName :=
  (events.filterMap Except.toOption).filter fun name => !name.isDots

/-- The entries of the directory, whether or not they can be read. -/
def DirStream.entries (stream : DirStream) : List FileName := entryNames stream.events

/-- `Path::join`, of a path and a name. -/
def pathJoin (path : List UInt8) (name : FileName) : List UInt8 :=
  if name.head? = some 47 then name
  else if path = [] ∨ path.getLast? = some 47 then path ++ name
  else path ++ 47 :: name

/-- `std::fs::ReadDir`, with its entries by their paths: `.` and `..` are skipped, and an error is
the last that it gives. -/
def readDirEntries (root : List UInt8) :
    List (Except IoError FileName) → List (Except IoError (List UInt8))
  | [] => []
  | .error e :: _ => [.error e]
  | .ok name :: events =>
    if name.isDots then readDirEntries root events
    else .ok (pathJoin root name) :: readDirEntries root events

namespace FileSystem

variable {ι : Type} (fs : FileSystem ι)

/-- `std::fs::read_dir`, with what opening a directory answers. -/
def readDir (opendir : ι → Except IoError DirStream) (path : List UInt8) :
    Except IoError (List (Except IoError (List UInt8))) :=
  (fs.resolve true path).bind fun dir =>
    match fs.node dir with
    | .dir _ => (opendir dir).map fun stream => readDirEntries path stream.events
    | _ => .error notDirectory

/-! ### Entries -/

/-- The entry that a path names.  All links are followed on the way to its directory. -/
def entryOf (path : List UInt8) : Except IoError (ι × FileName) :=
  if 0 ∈ path then .error nulInPath
  else if path = [] then .error noEntry
  else if fs.maxPath ≤ path.length then .error nameTooLong
  else
    match (pathComponents path).getLast? with
    | none => .error isADirectory
    | some name =>
      (fs.walk true fs.maxLinks (fs.start fs.cwd path) (pathComponents path).dropLast).bind
        fun dir =>
          match fs.node dir with
          | .dir _ => .ok (dir, name)
          | _ => .error notDirectory

/-- `std::fs::remove_file`, with what removing an entry comes to. -/
def removeFile (unlink : ι → FileName → Except IoError Unit) (path : List UInt8) :
    Except IoError Unit :=
  (fs.entryOf path).bind fun (dir, name) => unlink dir name

/-- `std::fs::read`, with what reading a node comes to. -/
def read (contents : ι → Except IoError (List UInt8)) (path : List UInt8) :
    Except IoError (List UInt8) :=
  (fs.resolve true path).bind contents

end FileSystem

end BasicCli
