import BasicCli.StdIo.Reader

/-!
# Buffered file readers

`file_reader`, `file_read_line` and the loop under it from `crates/roc_file`.
-/

namespace BasicCli

open StdIo

/-- `memchr::memchr`, which finds the first place of a byte.  `read_until` of `std` has one of its
own. -/
class Memchr where
  memchr (needle : UInt8) (haystack : List UInt8) : Option ℕ
  memchr_eq_some_iff {needle : UInt8} {haystack : List UInt8} {i : ℕ} :
    memchr needle haystack = some i ↔ haystack[i]? = some needle ∧ needle ∉ haystack.take i

open Memchr

variable [Memchr]

/-- The loop of `read_until`: `none` means that `fuel` did not suffice, and otherwise there are the
result, the bytes appended to and the reader. -/
def readUntilLoop {R : Type} [BufRead R] (delim : UInt8) :
    (fuel : ℕ) → R → (buf : List UInt8) → (read : ℕ) →
      Option (Except IoError ℕ × List UInt8 × R)
  | 0, _, _, _ => none
  | fuel + 1, r, buf, read =>
    match BufRead.fillBuf r with
    | (.error e, r) =>
      if e.kind = .interrupted then readUntilLoop delim fuel r buf read
      else some (.error e, buf, r)
    | (.ok available, r) =>
      let (buf, done, used) :=
        match memchr delim available with
        | some i => (buf ++ available.take (i + 1), true, i + 1)
        | none => (buf ++ available, false, available.length)
      -- Without the delimiter the loop ends only when nothing was there to consume.
      let r := BufRead.consume r used
      let read := read + used
      if done ∨ used = 0 then some (.ok read, buf, r)
      else readUntilLoop delim fuel r buf read

/-- `read_until`. -/
def readUntil {R : Type} [BufRead R] (fuel : ℕ) (r : R) (delim : UInt8) (buf : List UInt8) :
    Option (Except IoError ℕ × List UInt8 × R) :=
  readUntilLoop delim fuel r buf 0

section

variable {E : Type} (into : IoError → E)

/-- `file_reader`, with what `File::open` answers, the opened file as a source, and what the heap
answers.  `E` is the `IOErr` that the crate was written for, built by `into`. -/
def fileReader (file : Except IoError Source) (size : UInt64) (allocFor : Except IoError Unit) :
    Except E BufReader :=
  match file with
  | .ok file =>
    let bufReader :=
      if h : size > 0 then
        BufReader.withCapacity size.toNat file (UInt64.lt_iff_toNat_lt.mp h)
      else BufReader.new file
    match allocFor with
    | .ok () => .ok bufReader
    | .error err => .error (into err)
  | .error err => .error (into err)

/-- `file_read_line`. -/
def fileReadLine (fuel : ℕ) (bufReader : BufReader) :
    Option (Except E (List UInt8) × BufReader) :=
  match readUntil fuel bufReader 10 [] with
  | some (.ok _, buffer, bufReader) => some (.ok buffer, bufReader)
  | some (.error err, _, bufReader) => some (.error (into err), bufReader)
  | none => none

end

end BasicCli
