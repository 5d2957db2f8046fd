import BasicCli.Stdin.Basic

/-!
# Mixed reads of standard input

`stdin_line`, `stdin_bytes` and `stdin_read_to_end` of `crates/roc_stdio`, which share the buffer of
`std::io::stdin()`.
-/

namespace BasicCli.Stdin

open StdIo

/-- `BUF_SIZE` of `stdin_bytes`, which is more than the buffer of `stdin()` holds. -/
def bufSize : ℕ := 16384

/-- `std::io::stdin()`. -/
def stdStdin (input : Source) : BufReader := .new input

/-- A read of standard input. -/
inductive StdinCall
  | line
  | bytes
  | readToEnd
deriving DecidableEq, Repr

/-- What a read answers. -/
inductive StdinAnswer (E : Type)
  | line (res : Except E RocStr)
  | bytes (res : Except E (List UInt8))

section

variable [Memchr] {E : Type} (endOfFile : E) (into : IoError → E)

/-- `stdin_bytes`. -/
def stdinBytes (stdin : BufReader) : Except E (List UInt8) × BufReader :=
  let (res, stdin) := stdin.read bufSize
  (res.mapError into, stdin)

/-- `stdin_read_to_end`.  `sizes` and `fuel` are those of `read_to_end`. -/
def stdinReadToEnd (sizes : ℕ → List UInt8 → ℕ) (fuel : ℕ) (stdin : BufReader) :
    Option (Except E (List UInt8) × BufReader) :=
  match stdin.readToEnd sizes fuel with
  | some (res, stdin) => some (res.mapError into, stdin)
  | none => none

/-- Make a call. -/
def StdinCall.run (sizes : ℕ → List UInt8 → ℕ) (fuel : ℕ) (stdin : BufReader) :
    StdinCall → Option (StdinAnswer E × BufReader)
  | line => (stdinLine endOfFile into fuel stdin).map fun (res, stdin) => (.line res, stdin)
  | bytes =>
    let (res, stdin) := stdinBytes into stdin
    some (.bytes res, stdin)
  | readToEnd =>
    (stdinReadToEnd into sizes fuel stdin).map fun (res, stdin) => (.bytes res, stdin)

/-- Make some calls one after the other. -/
def runCalls (sizes : ℕ → List UInt8 → ℕ) (fuel : ℕ) :
    BufReader → List StdinCall → Option (List (StdinAnswer E) × BufReader)
  | stdin, [] => some ([], stdin)
  | stdin, call :: calls => do
    let (answer, stdin) ← call.run endOfFile into sizes fuel stdin
    let (answers, stdin) ← runCalls sizes fuel stdin calls
    return (answer :: answers, stdin)

end

end BasicCli.Stdin
