import BasicCli.File.Basic
import BasicCli.Num.Basic

/-!
# Reading a file line by line

The loop of `examples/file-read-buffered.roc`, on the reader of the host.
-/

namespace BasicCli

open StdIo

/-- `ReadSummary`. -/
structure ReadSummary where
  linesRead : UInt64
  bytesRead : UInt64
deriving DecidableEq, Repr

/-- `process_line!`, with the error of `File.read_line!` in `ErrorReadingLine`: `none` means that
`rounds` or `fuel` did not suffice, and an error of the outer `Except` is a crash. -/
def processLine [Memchr] {E : Type} (into : IoError → E) (fuel : ℕ) :
    (rounds : ℕ) → BufReader → ReadSummary → Option (Except Crash (Except E ReadSummary))
  | 0, _, _ => none
  | rounds + 1, reader, ⟨linesRead, bytesRead⟩ =>
    match fileReadLine into fuel reader with
    | some (.ok [], _) => some (.ok (.ok ⟨linesRead, bytesRead⟩))
    | some (.ok (b :: bytes), reader) =>
      match Num.addU64 linesRead 1 with
      | .error crash => some (.error crash)
      | .ok linesRead =>
        match Num.addU64 bytesRead (.ofNat (b :: bytes).length) with
        | .error crash => some (.error crash)
        | .ok bytesRead => processLine into fuel rounds reader ⟨linesRead, bytesRead⟩
    | some (.error err, _) => some (.ok (.error err))
    | none => none

end BasicCli
