import BasicCli.Env.Basic
import BasicCli.File.Basic

/-!
# `Stdin.line!`

`hosted_stdin_line` from `src/lib.rs` and `stdin_line` from `crates/roc_stdio`, which it replaces,
on standard input as a buffered reader.  The lock of `stdin()` is dropped at the end of a call; the
buffer under it is shared by all of them.
-/

namespace BasicCli.Stdin

open StdIo

variable [Memchr] {R : Type} [BufRead R]

/-- `append_to_string` on an empty string: what `read_until` has appended stays, whatever it
reports, if it is UTF-8. -/
def appendToString (ret : Except IoError ℕ) (appended : List UInt8) : Except IoError ℕ × String :=
  match Utf8.fromUtf8? appended with
  | some line => (ret, line)
  | none => (ret.bind fun _ => .error invalidUtf8, "")

/-- `BufRead::read_line` into an empty string: its result, the string and the reader. -/
def readLine (fuel : ℕ) (stdin : R) : Option (Except IoError ℕ × String × R) :=
  match readUntil fuel stdin 10 [] with
  | some (ret, appended, stdin) =>
    let (ret, line) := appendToString ret appended
    some (ret, line, stdin)
  | none => none

/-- `hosted_stdin_line`. -/
def hostedStdinLine (fuel : ℕ) (stdin : R) : Option (RocStr × R) :=
  match readLine fuel stdin with
  -- The result of `read_line` is dropped.
  | some (_, line, stdin) => some (.fromStr (trimEndMatchesNewline line), stdin)
  | none => none

/-- What `Lines` does to a line: one `"\n"` at its end, or one `"\r\n"`, is popped. -/
def popLineEnd (buf : String) : String :=
  if buf.toList.getLast? = some '\n' then
    let buf := buf.toList.dropLast
    if buf.getLast? = some '\r' then .ofList buf.dropLast else .ofList buf
  else buf

/-- `lines().next()`. -/
def linesNext (fuel : ℕ) (stdin : R) : Option (Option (Except IoError String) × R) :=
  match readLine fuel stdin with
  | some (.ok 0, _, stdin) => some (none, stdin)
  | some (.ok (_ + 1), buf, stdin) => some (some (.ok (popLineEnd buf)), stdin)
  | some (.error e, _, stdin) => some (some (.error e), stdin)
  | none => none

section

variable {E : Type} (endOfFile : E) (into : IoError → E)

/-- `stdin_line`.  `E` is the `IOErr` that the crate was written for, which has a value
`endOfFile`. -/
def stdinLine (fuel : ℕ) (stdin : R) : Option (Except E RocStr × R) :=
  match linesNext fuel stdin with
  | some (none, stdin) => some (.error endOfFile, stdin)
  | some (some (.ok str), stdin) => some (.ok (.fromStr str), stdin)
  | some (some (.error ioErr), stdin) => some (.error (into ioErr), stdin)
  | none => none

end

/-- The reader behind `k` calls of `line`. -/
def afterCalls {α : Type} (line : R → Option (α × R)) : (k : ℕ) → R → Option R
  | 0, stdin => some stdin
  | k + 1, stdin =>
    match line stdin with
    | some (_, stdin) => afterCalls line k stdin
    | none => none

end BasicCli.Stdin
