import BasicCli.StdIo.Error
import Mathlib.Data.List.Basic

/-!
# Readers and writers

The parts of `std::io` that move bytes: a source that answers reads with what arrives next, the
`BufReader` over it, `Take`, `read_to_end` and `write_all`.

What a source still has to say is a list of events, so its reads may be cut anywhere and may fail at
any point; after the last event it has ended.  `read_to_end` reads pieces of sizes that are its own
business, which are a parameter here.
-/

namespace BasicCli.StdIo

/-! ### Sources -/

/-- What a source has for its reader: some bytes that have arrived together, or a failing read. -/
inductive Event
  | data (b : UInt8) (bs : List UInt8)
  | error (e : IoError)
deriving DecidableEq, Repr

/-- The bytes of an event. -/
def Event.bytes : Event → List UInt8
  | data b bs => b :: bs
  | error _ => []

/-- The error of an event. -/
def Event.error? : Event → Option IoError
  | data _ _ => none
  | error e => some e

/-- A source, by the events to come. -/
abbrev Source := List Event

namespace Source

/-- The bytes to come. -/
def rest (s : Source) : List UInt8 := s.flatMap Event.bytes

/-- The failures to come. -/
def errs (s : Source) : List IoError := s.filterMap Event.error?

/-- The source `s` with bytes that have arrived before. -/
def push (bs : List UInt8) (s : Source) : Source :=
  match bs with
  | [] => s
  | b :: bs => .data b bs :: s

/-- `Read::read` into a buffer of `m` bytes. -/
def read (m : ℕ) : Source → Except IoError (List UInt8) × Source
  | [] => (.ok [], [])
  | .error e :: s => (.error e, s)
  | .data b bs :: s => (.ok ((b :: bs).take m), push ((b :: bs).drop m) s)

end Source

/-! ### `BufReader` -/

/-- `BufRead`. -/
class BufRead (R : Type) where
  fillBuf : R → Except IoError (List UInt8) × R
  consume : R → ℕ → R

/-- `BufReader`: the part of its buffer that is filled and not consumed, and the source. -/
structure BufReader where
  capacity : ℕ
  buf : List UInt8
  inner : Source
  capacity_pos : 0 < capacity

namespace BufReader

/-- `BufReader::with_capacity`. -/
def withCapacity (capacity : ℕ) (inner : Source) (h : 0 < capacity) : BufReader :=
  ⟨capacity, [], inner, h⟩

/-- `BufReader::new`. -/
def new (inner : Source) : BufReader := withCapacity 8192 inner (by decide)

/-- `BufReader::fill_buf`. -/
def fillBuf (r : BufReader) : Except IoError (List UInt8) × BufReader :=
  match r.buf with
  | [] =>
    match r.inner.read r.capacity with
    | (.ok bs, s) => (.ok bs, { r with buf := bs, inner := s })
    | (.error e, s) => (.error e, { r with inner := s })
  | _ :: _ => (.ok r.buf, r)

/-- `BufReader::consume`. -/
def consume (r : BufReader) (k : ℕ) : BufReader := { r with buf := r.buf.drop k }

instance : BufRead BufReader := ⟨fillBuf, consume⟩

/-- `BufReader::read`: with nothing buffered, a read as large as the buffer goes past it. -/
def read (m : ℕ) (r : BufReader) : Except IoError (List UInt8) × BufReader :=
  -- The buffer is not filled by such a read.
  if r.buf = [] ∧ r.capacity ≤ m then
    let (res, s) := r.inner.read m
    (res, { r with inner := s })
  else
    match r.fillBuf with
    | (.ok bs, r) => (.ok (bs.take m), r.consume (bs.take m).length)
    | (.error e, r) => (.error e, r)

end BufReader

/-! ### `Take` -/

/-- `Take` of a borrowed `BufReader`. -/
structure Take where
  limit : ℕ
  inner : BufReader

namespace Take

/-- `Take::fill_buf`: at the limit the inner reader is not asked. -/
def fillBuf (t : Take) : Except IoError (List UInt8) × Take :=
  if t.limit = 0 then (.ok [], t)
  else
    match t.inner.fillBuf with
    | (.ok bs, r) => (.ok (bs.take t.limit), { t with inner := r })
    | (.error e, r) => (.error e, { t with inner := r })

/-- `Take::read`: at the limit the inner reader is not asked. -/
def read (m : ℕ) (t : Take) : Except IoError (List UInt8) × Take :=
  if t.limit = 0 then (.ok [], t)
  else
    match t.inner.read (min m t.limit) with
    | (.ok bs, r) => (.ok bs, ⟨t.limit - bs.length, r⟩)
    | (.error e, r) => (.error e, { t with inner := r })

/-- `Take::read_to_end` onto `buf`.  The next read asks for one byte and the `sizes` more that it
chooses by the reads left and the bytes so far; a read that is interrupted is made again.  `none`
means that `fuel` did not suffice. -/
def readToEnd (sizes : ℕ → List UInt8 → ℕ) :
    (fuel : ℕ) → Take → (buf : List UInt8) → Option (Except IoError (List UInt8) × Take)
  | 0, _, _ => none
  | fuel + 1, t, buf =>
    match t.read (sizes fuel buf + 1) with
    | (.ok [], t) => some (.ok buf, t)
    | (.ok (b :: bs), t) => readToEnd sizes fuel t (buf ++ b :: bs)
    | (.error e, t) =>
      if e.kind = .interrupted then readToEnd sizes fuel t buf else some (.error e, t)

end Take

/-! ### `read_to_end` -/

/-- `default_read_to_end` onto `buf`, with sizes as those of `Take.readToEnd`. -/
def Source.readToEnd (sizes : ℕ → List UInt8 → ℕ) :
    (fuel : ℕ) → Source → (buf : List UInt8) → Option (Except IoError (List UInt8) × Source)
  | 0, _, _ => none
  | fuel + 1, s, buf =>
    match s.read (sizes fuel buf + 1) with
    | (.ok [], s) => some (.ok buf, s)
    | (.ok (b :: bs), s) => readToEnd sizes fuel s (buf ++ b :: bs)
    | (.error e, s) =>
      if e.kind = .interrupted then readToEnd sizes fuel s buf else some (.error e, s)

/-- `BufReader::read_to_end` onto nothing: what is buffered, and then all that the source has. -/
def BufReader.readToEnd (sizes : ℕ → List UInt8 → ℕ) (fuel : ℕ) (r : BufReader) :
    Option (Except IoError (List UInt8) × BufReader) :=
  match r.inner.readToEnd sizes fuel r.buf with
  | some (res, s) => some (res, { r with buf := [], inner := s })
  | none => none

/-! ### Sinks -/

/-- What a sink does with a write: it takes some of the bytes, or the write fails. -/
inductive SinkEvent
  | accept (n : ℕ)
  | error (e : IoError)
deriving DecidableEq, Repr

/-- The error of `write_all` on a sink that takes nothing. -/
def writeZero : IoError := ⟨.writeZero, "failed to write whole buffer"⟩

/-- `Write::write_all` of `buf` to a sink that does `events` and then takes all it gets: the result,
the bytes it has taken and the events left. -/
def writeAll :
    List SinkEvent → (buf : List UInt8) → Except IoError Unit × List UInt8 × List SinkEvent
  | events, [] => (.ok (), [], events)
  | [], buf => (.ok (), buf, [])
  | .accept n :: events, b :: buf =>
    if n = 0 then (.error writeZero, [], events)
    else
      let (res, taken, events) := writeAll events ((b :: buf).drop n)
      (res, (b :: buf).take n ++ taken, events)
  | .error e :: events, b :: buf =>
    if e.kind = .interrupted then writeAll events (b :: buf) else (.error e, [], events)

end BasicCli.StdIo
