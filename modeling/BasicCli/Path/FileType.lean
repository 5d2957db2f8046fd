import BasicCli.FileSystem.Basic
import BasicCli.IOErr.Basic

/-!
# `Path.is_file!`, `Path.is_dir!` and `Path.is_sym_link!`

`hosted_path_is_file`, `hosted_path_is_dir` and `hosted_path_is_sym_link` of `src/lib.rs` on a Unix.
-/

namespace BasicCli

variable {ι : Type} (fs : FileSystem ι)

/-- `Path::symlink_metadata`, by the node that it is about. -/
def symlinkMetadata (path : RocStr) : Except IoError (Node ι) :=
  (fs.resolve false path.bytes).map fs.node

/-- `write_try_bool_result`, by the value that is written. -/
def writeTryBoolResult (result : Except IoError Bool) : Except (IOErr RocStr) Bool :=
  match result with
  | .ok value => .ok value
  | .error e => .error (IOErr.fromIoError .fromStr e)

/-- `hosted_path_is_dir`. -/
def hostedPathIsDir (path : RocStr) : Except (IOErr RocStr) Bool :=
  writeTryBoolResult ((symlinkMetadata fs path).map Node.isDir)

/-- `hosted_path_is_file`. -/
def hostedPathIsFile (path : RocStr) : Except (IOErr RocStr) Bool :=
  writeTryBoolResult ((symlinkMetadata fs path).map Node.isFile)

/-- `hosted_path_is_sym_link`. -/
def hostedPathIsSymLink (path : RocStr) : Except (IOErr RocStr) Bool :=
  writeTryBoolResult ((symlinkMetadata fs path).map Node.isSymlink)

end BasicCli
