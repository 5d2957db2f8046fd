import BasicCli.FileSystem.Directory
import BasicCli.Path.FileType

/-!
# `File.delete!` and `File.read_bytes!`

`hosted_file_delete` and `hosted_file_read_bytes` of `src/lib.rs` on a Unix, with what its kernel
makes of an entry or a node that it has found.
-/

namespace BasicCli

/-- What is written for a `Try(_, [FileErr(IOErr)])`. -/
def fileTry {α : Type} (result : Except IoError α) : Except (IOErr RocStr) α :=
  match result with
  | .ok value => .ok value
  | .error e => .error (.fromIoError .fromStr e)

section

variable {ι : Type} (fs : FileSystem ι)

/-- `hosted_file_delete`. -/
def hostedFileDelete (unlink : ι → FileName → Except IoError Unit) (path : RocStr) :
    Except (IOErr RocStr) Unit :=
  fileTry (fs.removeFile unlink path.bytes)

/-- `hosted_file_read_bytes`. -/
def hostedFileReadBytes (contents : ι → Except IoError (List UInt8)) (path : RocStr) :
    Except (IOErr RocStr) (List UInt8) :=
  fileTry (fs.read contents path.bytes)

end

end BasicCli
