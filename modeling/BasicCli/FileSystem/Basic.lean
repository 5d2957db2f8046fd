import BasicCli.StdIo.Error
import Mathlib.Data.List.Basic

/-!
# Path resolution

A file system of a Unix as a graph of nodes, and how its kernel finds the node of a path: component
by component, following the symbolic links on the way up to a number of them, if it has room for the
path.  What a directory answers for a name is its own business, so it may have no such entry, or
deny the search.
-/

namespace BasicCli

/-- The name of an entry, any bytes but `/`. -/
abbrev FileName := List UInt8

/-- A node of a file system. -/
inductive Node (ι : Type)
  | file
  /-- a directory by what it answers for a name, `.` and `..` among them -/
  | dir (entry : FileName → Except IoError ι)
  | symlink (target : List UInt8)
  /-- a device, a socket or a pipe -/
  | other

namespace Node

variable {ι : Type}

/-- `Metadata::is_file`, of the node's metadata. -/
def isFile : Node ι → Bool
  | file => true
  | _ => false

/-- `Metadata::is_dir`. -/
def isDir : Node ι → Bool
  | dir _ => true
  | _ => false

/-- `Metadata::is_symlink`. -/
def isSymlink : Node ι → Bool
  | symlink _ => true
  | _ => false

theorem eq_symlink {n : Node ι} (h : n.isSymlink = true) : ∃ target, n = symlink target := by
  cases n with
  | symlink target => exact ⟨target, rfl⟩
  | file | dir _ | other => cases h

end Node

/-- A file system, with the process's working directory. -/
structure FileSystem (ι : Type) where
  node : ι → Node ι
  root : ι
  cwd : ι
  /-- How many links are followed for one path, 40 on Linux. -/
  maxLinks : ℕ
  /-- The room for a path and the NUL byte behind it, 4096 bytes on Linux. -/
  maxPath : ℕ

/-! ### Errors -/

/-- The error of `std` for a path that no C string can hold. -/
def nulInPath : IoError := ⟨.invalidInput, "file name contained an unexpected NUL byte"⟩

/-- `ENOENT` -/
def noEntry : IoError := ⟨.notFound, "No such file or directory (os error 2)"⟩

/-- `ENOTDIR` -/
def notDirectory : IoError := ⟨.notADirectory, "Not a directory (os error 20)"⟩

/-- `ENAMETOOLONG` -/
def nameTooLong : IoError := ⟨.invalidFilename, "File name too long (os error 36)"⟩

/-- `ELOOP` -/
def tooManyLinks : IoError := ⟨.filesystemLoop, "Too many levels of symbolic links (os error 40)"⟩

/-! ### Paths -/

/-- The components of a path.  A slash after the last one asks for a directory, as `/.` would. -/
def pathComponents (path : List UInt8) : List FileName :=
  let names := (path.splitOn 47).filter (· ≠ [])
  if names ≠ [] ∧ path.getLast? = some 47 then names ++ [[46]] else names

namespace FileSystem

variable {ι : Type} (fs : FileSystem ι)

/-- Where a path that is met in `dir` starts. -/
def start (dir : ι) (path : List UInt8) : ι := if path.head? = some 47 then fs.root else dir

/-- The entry of a directory. -/
def lookup (dir : ι) (name : FileName) : Except IoError ι :=
  match fs.node dir with
  | .dir entry => entry name
  | _ => .error notDirectory

/-- Go through the components from `dir`, where `expand` goes on behind a link.  A link in the last
place is followed only with `follow`. -/
def walkWith (follow : Bool) (expand : ι → List FileName → Except IoError ι) :
    ι → List FileName → Except IoError ι
  | dir, [] => .ok dir
  | dir, name :: names =>
    match fs.lookup dir name with
    | .error e => .error e
    | .ok n =>
      match fs.node n with
      | .symlink target =>
        if names = [] ∧ follow = false then .ok n
        else expand (fs.start dir target) (pathComponents target ++ names)
      | _ => walkWith follow expand n names

/-- Go through the components from `dir`, following at most so many links. -/
def walk (follow : Bool) : ℕ → ι → List FileName → Except IoError ι
  | 0 => fs.walkWith follow fun _ _ => .error tooManyLinks
  | links + 1 => fs.walkWith follow (walk follow links)

/-- The node of a path: `lstat`, or `stat` with `follow`. -/
def resolve (follow : Bool) (path : List UInt8) : Except IoError ι :=
  if 0 ∈ path then .error nulInPath
  else if path = [] then .error noEntry
  else if fs.maxPath ≤ path.length then .error nameTooLong
  else fs.walk follow fs.maxLinks (fs.start fs.cwd path) (pathComponents path)

end FileSystem

end BasicCli
