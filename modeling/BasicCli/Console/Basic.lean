import BasicCli.RocStr.Basic
import BasicCli.StdIo.Writer
import Mathlib.Logic.Function.Basic

/-!
# Standard output and standard error

`hosted_stdout_line`, `hosted_stdout_write`, `hosted_stderr_line`, `hosted_stderr_write` and
`roc_crashed_fn` of `src/lib.rs`.  The standard output of `std` is a `LineWriter`, its standard
error is not buffered.
-/

namespace BasicCli

open StdIo

/-! ### File descriptors -/

/-- The file descriptors 1 and 2. -/
inductive Fd
  | stdout
  | stderr
deriving DecidableEq, Repr

/-- What the kernel does with the writes to come, and the bytes it has been passed, in the order of
the system writes. -/
structure Fds where
  events : Fd → List SinkEvent
  written : List (Fd × UInt8)

/-- `write_all` to a file descriptor. -/
def Fds.writeAll (fd : Fd) (bs : List UInt8) (fds : Fds) : (Except IoError Unit × ℕ) × Fds :=
  let (res, taken, events) := StdIo.writeAll (fds.events fd) bs
  ((res, taken.length),
    ⟨Function.update fds.events fd events, fds.written ++ taken.map (fd, ·)⟩)

/-! ### Standard streams -/

/-- `StdoutRaw`, by way of which the other descriptor is reached too. -/
structure StdoutRaw where
  fds : Fds

instance : Write StdoutRaw where
  writeAll bs raw :=
    let (res, fds) := raw.fds.writeAll .stdout bs
    (res, ⟨fds⟩)

/-- The buffer of `io::stdout()` and the file descriptors. -/
abbrev Console := LineWriter StdoutRaw

namespace Console

/-- Nothing has been written. -/
def init (events : Fd → List SinkEvent) : Console := .new ⟨events, []⟩

/-- The bytes that the kernel has been passed. -/
def written (s : Console) : List (Fd × UInt8) := s.inner.fds.written

/-- `write_all` of `io::stderr()`. -/
def stderrWriteAll (bs : List UInt8) : WriteM Console Unit := fun s =>
  let ((res, _), fds) := s.inner.fds.writeAll .stderr bs
  (res, { s with inner := ⟨fds⟩ })

/-- `flush` of `io::stderr()`. -/
def stderrFlush : WriteM Console Unit := pure ()

/-- `Write::write_fmt`: the pieces of the text one after the other. -/
def writeFmt (writeAll : List UInt8 → WriteM Console Unit) (pieces : List (List UInt8)) :
    WriteM Console Unit :=
  pieces.forM writeAll

/-- `let _ = ..` -/
def ignore (x : WriteM Console Unit) : StateM Console Unit := do
  let _ ← x.run

end Console

open Console

/-! ### The host's functions -/

/-- `hosted_stdout_line`. -/
def hostedStdoutLine (message : RocStr) : StateM Console Unit :=
  ignore (writeFmt LineWriter.writeAll [message.bytes, [10]])

/-- `hosted_stdout_write`. -/
def hostedStdoutWrite (message : RocStr) : StateM Console Unit := do
  ignore (writeFmt LineWriter.writeAll [message.bytes])
  ignore LineWriter.flush

/-- `hosted_stderr_line`. -/
def hostedStderrLine (message : RocStr) : StateM Console Unit :=
  ignore (writeFmt stderrWriteAll [message.bytes, [10]])

/-- `hosted_stderr_write`. -/
def hostedStderrWrite (message : RocStr) : StateM Console Unit := do
  ignore (writeFmt stderrWriteAll [message.bytes])
  ignore stderrFlush

/-- The text before the message of a crash. -/
def crashedText : List UInt8 := strBytes "\n\x1b[31mRoc crashed:\x1b[0m "

/-- `roc_crashed_fn`, up to the end of the process. -/
def rocCrashedFn (message : RocStr) : StateM Console Unit :=
  ignore (writeFmt stderrWriteAll [crashedText, message.bytes, [10]])

/-! ### Runs -/

/-- A call of `Stdout.line!`, `Stdout.write!`, `Stderr.line!` or `Stderr.write!`. -/
inductive ConsoleCall
  | stdoutLine (message : RocStr)
  | stdoutWrite (message : RocStr)
  | stderrLine (message : RocStr)
  | stderrWrite (message : RocStr)

/-- Make a call. -/
def ConsoleCall.run : ConsoleCall → StateM Console Unit
  | stdoutLine message => hostedStdoutLine message
  | stdoutWrite message => hostedStdoutWrite message
  | stderrLine message => hostedStderrLine message
  | stderrWrite message => hostedStderrWrite message

/-- Make some calls one after the other. -/
def Console.runCalls (calls : List ConsoleCall) : StateM Console Unit := calls.forM ConsoleCall.run

end BasicCli
