import BasicCli.File.Basic
import BasicCli.Tcp.Error

/-!
# TCP streams

The operations of `crates/roc_http` on a `BufReader` of a TCP stream, and what a Roc program can do
with one: any sequence of calls (`TcpCall`).
-/

namespace BasicCli

open StdIo

/-- A connected socket: what its peer sends and what happens to the bytes written to it. -/
structure TcpSocket where
  incoming : Source
  outgoing : List SinkEvent

/-- The resource behind the box of `tcp_connect`: the reader of the stream, and the sink that
`get_mut` reaches, with the bytes it has taken. -/
structure TcpStream where
  reader : BufReader
  outgoing : List SinkEvent
  sent : List UInt8

/-- `tcp_connect`, with what `TcpStream::connect` and the heap answer. -/
def tcpConnect (connected : Except IoError TcpSocket) (allocFor : Except IoError Unit) :
    Except RocStr TcpStream :=
  match connected with
  | .ok socket =>
    let bufReader := BufReader.new socket.incoming
    match allocFor with
    | .ok () => .ok ⟨bufReader, socket.outgoing, []⟩
    | .error err => .error (toTcpConnectErr err)
  | .error err => .error (toTcpConnectErr err)

/-- `tcp_read_up_to`. -/
def tcpReadUpTo (stream : TcpStream) (bytesToRead : UInt64) :
    Except RocStr (List UInt8) × TcpStream :=
  let chunk : Take := ⟨bytesToRead.toNat, stream.reader⟩
  match chunk.fillBuf with
  | (.ok received, chunk) =>
    -- `consume` is called on the reader under the `Take`, not through it.
    (.ok received, { stream with reader := chunk.inner.consume received.length })
  | (.error err, chunk) => (.error (toTcpStreamErr err), { stream with reader := chunk.inner })

/-- `tcp_read_exactly`.  `sizes` and `fuel` are those of `read_to_end`. -/
def tcpReadExactly (sizes : ℕ → List UInt8 → ℕ) (fuel : ℕ) (stream : TcpStream)
    (bytesToRead : UInt64) : Option (Except RocStr (List UInt8) × TcpStream) :=
  let chunk : Take := ⟨bytesToRead.toNat, stream.reader⟩
  match chunk.readToEnd sizes fuel [] with
  | some (.ok buffer, chunk) =>
    -- The stream has ended: the bytes read so far are dropped.
    if buffer.length < bytesToRead.toNat then
      some (.error (.fromStr unexpectedEofError), { stream with reader := chunk.inner })
    else some (.ok buffer, { stream with reader := chunk.inner })
  | some (.error err, chunk) =>
    some (.error (toTcpStreamErr err), { stream with reader := chunk.inner })
  | none => none

/-- `tcp_read_until`. -/
def tcpReadUntil [Memchr] (fuel : ℕ) (stream : TcpStream) (byte : UInt8) :
    Option (Except RocStr (List UInt8) × TcpStream) :=
  match readUntil fuel stream.reader byte [] with
  | some (.ok _, buffer, reader) => some (.ok buffer, { stream with reader })
  | some (.error err, _, reader) => some (.error (toTcpStreamErr err), { stream with reader })
  | none => none

/-- `tcp_write`. -/
def tcpWrite (stream : TcpStream) (msg : List UInt8) : Except RocStr Unit × TcpStream :=
  match writeAll stream.outgoing msg with
  | (.ok (), taken, outgoing) => (.ok (), { stream with outgoing, sent := stream.sent ++ taken })
  | (.error err, taken, outgoing) =>
    (.error (toTcpStreamErr err), { stream with outgoing, sent := stream.sent ++ taken })

/-! ### Calls -/

/-- A call on a stream. -/
inductive TcpCall
  | readUpTo (bytesToRead : UInt64)
  | readExactly (bytesToRead : UInt64)
  | readUntil (byte : UInt8)
  | write (msg : List UInt8)
deriving DecidableEq, Repr

/-- The answer to a call. -/
inductive TcpAnswer
  | read (res : Except RocStr (List UInt8))
  | wrote (res : Except RocStr Unit)

/-- Make a call. -/
def TcpCall.run [Memchr] (sizes : ℕ → List UInt8 → ℕ) (fuel : ℕ) (stream : TcpStream) :
    TcpCall → Option (TcpAnswer × TcpStream)
  | readUpTo n =>
    let (res, stream) := tcpReadUpTo stream n
    some (.read res, stream)
  | readExactly n =>
    (tcpReadExactly sizes fuel stream n).map fun (res, stream) => (.read res, stream)
  | readUntil byte =>
    (tcpReadUntil fuel stream byte).map fun (res, stream) => (.read res, stream)
  | write msg =>
    let (res, stream) := tcpWrite stream msg
    some (.wrote res, stream)

/-- Make some calls one after the other. -/
def TcpStream.runCalls [Memchr] (sizes : ℕ → List UInt8 → ℕ) (fuel : ℕ) :
    TcpStream → List TcpCall → Option (List TcpAnswer × TcpStream)
  | stream, [] => some ([], stream)
  | stream, call :: calls => do
    let (answer, stream) ← call.run sizes fuel stream
    let (answers, stream) ← stream.runCalls sizes fuel calls
    return (answer :: answers, stream)

end BasicCli
