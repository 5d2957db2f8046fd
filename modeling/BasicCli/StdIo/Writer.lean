import BasicCli.StdIo.Reader

/-!
# Buffered writers

`BufWriter` and `LineWriter` of `std::io` over any writer.  A `LineWriter` is a `BufWriter` that
passes on everything up to the last newline of what it is given.
-/

namespace BasicCli.StdIo

/-- `Write::write_all`, with the number of bytes that the writer has taken when it ends. -/
class Write (W : Type) where
  writeAll : List UInt8 → W → (Except IoError Unit × ℕ) × W

/-- What is done to a writer and may fail. -/
abbrev WriteM (W : Type) := ExceptT IoError (StateM W)

/-- `memrchr`: where a byte is last found. -/
def memrchr (x : UInt8) : List UInt8 → Option ℕ
  | [] => none
  | b :: bs =>
    match memrchr x bs with
    | some i => some (i + 1)
    | none => if b = x then some 0 else none

/-- `BufWriter`: what it has been given and has not passed on, and the writer below. -/
structure BufWriter (W : Type) where
  capacity : ℕ
  buf : List UInt8
  inner : W

namespace BufWriter

variable {W : Type}

/-- `BufWriter::spare_capacity`. -/
def spareCapacity (w : BufWriter W) : ℕ := w.capacity - w.buf.length

/-- `BufWriter::write_to_buffer_unchecked`. -/
def writeToBuffer (bs : List UInt8) : WriteM (BufWriter W) Unit :=
  modify fun w => { w with buf := w.buf ++ bs }

variable [Write W]

/-- `write_all` of the writer below. -/
def innerWriteAll (bs : List UInt8) : WriteM (BufWriter W) Unit := fun w =>
  let ((res, _), inner) := Write.writeAll bs w.inner
  (res, { w with inner })

/-- `BufWriter::flush_buf`, which keeps what the writer below has not taken. -/
def flushBuf : WriteM (BufWriter W) Unit := fun w =>
  let ((res, n), inner) := Write.writeAll w.buf w.inner
  (res, { w with buf := w.buf.drop n, inner })

/-- `BufWriter::write_all`. -/
def writeAll (bs : List UInt8) : WriteM (BufWriter W) Unit := do
  if bs.length < (← get).spareCapacity then
    writeToBuffer bs
  else
    -- `write_all_cold`
    if bs.length > (← get).spareCapacity then flushBuf
    if bs.length ≥ (← get).capacity then innerWriteAll bs else writeToBuffer bs

end BufWriter

/-- `LineWriter`. -/
abbrev LineWriter (W : Type) := BufWriter W

namespace LineWriter

variable {W : Type}

/-- `LineWriter::new`. -/
def new (inner : W) : LineWriter W := ⟨1024, [], inner⟩

variable [Write W]

/-- `LineWriterShim::flush_if_completed_line`. -/
def flushIfCompletedLine : WriteM (LineWriter W) Unit := do
  if (← get).buf.getLast? = some 10 then BufWriter.flushBuf

/-- `LineWriterShim::write_all`. -/
def writeAll (bs : List UInt8) : WriteM (LineWriter W) Unit := do
  match memrchr 10 bs with
  | none =>
    flushIfCompletedLine
    BufWriter.writeAll bs
  | some newlineIdx =>
    let (lines, tail) := bs.splitAt (newlineIdx + 1)
    if (← get).buf = [] then
      BufWriter.innerWriteAll lines
    else
      BufWriter.writeAll lines
      BufWriter.flushBuf
    BufWriter.writeAll tail

/-- `LineWriter::flush`. -/
def flush : WriteM (LineWriter W) Unit := BufWriter.flushBuf

end LineWriter

end BasicCli.StdIo
