import BasicCli.File.Basic
import BasicCli.StdIo.Time

/-!
# What may panic in `crates/roc_file`

`file_reader` with the room that it asks for, and the times of a file.  An error of the outer
`Except` ends the program.
-/

namespace BasicCli

open StdIo

variable {E : Type} (into : IoError → E)

/-- The capacity of the buffer that `file_reader` makes for a size: `BufReader::new` makes one of
8192 bytes. -/
def readerCapacity (size : UInt64) : UInt64 := if size > 0 then size else 8192

/-- `file_reader` with the room that it asks for: `heap` is what making the heap of the handles
answers, whose error `expect` panics with. -/
def fileReaderOrPanic (granted : ℕ → Bool) (file : Except IoError Source) (size : UInt64)
    (heap allocFor : Except IoError Unit) : Except Panic (Except E BufReader) :=
  match file with
  | .ok _ =>
    match withCapacity granted (readerCapacity size) with
    | .ok () =>
      match heap with
      | .ok () => .ok (fileReader into file size allocFor)
      | .error err => .error (.expect err)
    | .error panic => .error panic
  | .error err => .ok (.error (into err))

/-! ### Times -/

/-- `std::fs::Metadata`, by its times. -/
structure Metadata where
  accessed : Except IoError SystemTime
  modified : Except IoError SystemTime
  created : Except IoError SystemTime

/-- The functions below, by the time that they read from what `std::fs::metadata` answers. -/
def fileTime (time : Metadata → Except IoError SystemTime)
    (metadataRes : Except IoError Metadata) : Except Panic (Except E (BitVec 128)) :=
  match metadataRes with
  | .ok metadata =>
    match time metadata with
    | .ok time => (unwrap (time.durationSince unixEpoch)).map fun duration => .ok duration.asNanos
    | .error err => .ok (.error (into err))
  | .error err => .ok (.error (into err))

/-- `file_time_accessed`. -/
def fileTimeAccessed := fileTime into Metadata.accessed

/-- `file_time_modified`. -/
def fileTimeModified := fileTime into Metadata.modified

/-- `file_time_created`. -/
def fileTimeCreated := fileTime into Metadata.created

end BasicCli
