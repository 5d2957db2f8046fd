import BasicCli.Console.Basic

/-!
# Writes that answer

`stdout_line`, `stdout_write`, `stdout_write_bytes` and their likes for the standard error, of
`crates/roc_stdio`.  They write what the functions of `src/lib.rs` write, and answer with the error
of the first write that fails.
-/

namespace BasicCli.Console

open StdIo

/-- A call of the functions. -/
inductive StdioCall
  | stdoutLine (line : RocStr)
  | stdoutWrite (text : RocStr)
  | stdoutWriteBytes (bytes : List UInt8)
  | stderrLine (line : RocStr)
  | stderrWrite (text : RocStr)
  | stderrWriteBytes (bytes : List UInt8)

section

variable {E : Type} (into : IoError → E)

/-- The writes of a call, with their error as the answer. -/
def answer (writes : WriteM Console Unit) : StateM Console (Except E Unit) := do
  return (← writes.run).mapError into

/-- `stdout_line`. -/
def stdoutLine (line : RocStr) : StateM Console (Except E Unit) :=
  answer into do
    LineWriter.writeAll line.bytes
    LineWriter.writeAll [10]
    LineWriter.flush

/-- `stdout_write`. -/
def stdoutWrite (text : RocStr) : StateM Console (Except E Unit) :=
  answer into do
    LineWriter.writeAll text.bytes
    LineWriter.flush

/-- `stdout_write_bytes`. -/
def stdoutWriteBytes (bytes : List UInt8) : StateM Console (Except E Unit) :=
  answer into do
    LineWriter.writeAll bytes
    LineWriter.flush

/-- `stderr_line`. -/
def stderrLine (line : RocStr) : StateM Console (Except E Unit) :=
  answer into do
    stderrWriteAll line.bytes
    stderrWriteAll [10]
    stderrFlush

/-- `stderr_write`. -/
def stderrWrite (text : RocStr) : StateM Console (Except E Unit) :=
  answer into do
    stderrWriteAll text.bytes
    stderrFlush

/-- `stderr_write_bytes`. -/
def stderrWriteBytes (bytes : List UInt8) : StateM Console (Except E Unit) :=
  answer into do
    stderrWriteAll bytes
    stderrFlush

/-- Make a call. -/
def StdioCall.run : StdioCall → StateM Console (Except E Unit)
  | stdoutLine line => Console.stdoutLine into line
  | stdoutWrite text => Console.stdoutWrite into text
  | stdoutWriteBytes bytes => Console.stdoutWriteBytes into bytes
  | stderrLine line => Console.stderrLine into line
  | stderrWrite text => Console.stderrWrite into text
  | stderrWriteBytes bytes => Console.stderrWriteBytes into bytes

/-- Make some calls one after the other. -/
def runStdio : List StdioCall → Console → List (Except E Unit) × Console
  | [], s => ([], s)
  | call :: calls, s =>
    let (res, s) := call.run into s
    let (answers, s) := runStdio calls s
    (res :: answers, s)

end

end BasicCli.Console
