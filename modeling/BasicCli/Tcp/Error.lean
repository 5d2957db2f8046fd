import BasicCli.IOErr.Basic

/-!
# Error texts of TCP streams

`crates/roc_http` reports the failure of a TCP operation as a string.
-/

namespace BasicCli

/-- What `{:?}` prints for an `ErrorKind`. -/
def ErrorKind.debug : ErrorKind → String
  | .notFound => "NotFound"
  | .permissionDenied => "PermissionDenied"
  | .connectionRefused => "ConnectionRefused"
  | .connectionReset => "ConnectionReset"
  | .hostUnreachable => "HostUnreachable"
  | .networkUnreachable => "NetworkUnreachable"
  | .connectionAborted => "ConnectionAborted"
  | .notConnected => "NotConnected"
  | .addrInUse => "AddrInUse"
  | .addrNotAvailable => "AddrNotAvailable"
  | .networkDown => "NetworkDown"
  | .brokenPipe => "BrokenPipe"
  | .alreadyExists => "AlreadyExists"
  | .wouldBlock => "WouldBlock"
  | .notADirectory => "NotADirectory"
  | .isADirectory => "IsADirectory"
  | .directoryNotEmpty => "DirectoryNotEmpty"
  | .readOnlyFilesystem => "ReadOnlyFilesystem"
  | .filesystemLoop => "FilesystemLoop"
  | .staleNetworkFileHandle => "StaleNetworkFileHandle"
  | .invalidInput => "InvalidInput"
  | .invalidData => "InvalidData"
  | .timedOut => "TimedOut"
  | .writeZero => "WriteZero"
  | .storageFull => "StorageFull"
  | .notSeekable => "NotSeekable"
  | .quotaExceeded => "QuotaExceeded"
  | .fileTooLarge => "FileTooLarge"
  | .resourceBusy => "ResourceBusy"
  | .executableFileBusy => "ExecutableFileBusy"
  | .deadlock => "Deadlock"
  | .crossesDevices => "CrossesDevices"
  | .tooManyLinks => "TooManyLinks"
  | .invalidFilename => "InvalidFilename"
  | .argumentListTooLong => "ArgumentListTooLong"
  | .interrupted => "Interrupted"
  | .unsupported => "Unsupported"
  | .unexpectedEof => "UnexpectedEof"
  | .outOfMemory => "OutOfMemory"
  | .inProgress => "InProgress"
  | .other => "Other"
  | .uncategorized => "Uncategorized"

/-- `UNEXPECTED_EOF_ERROR`. -/
def unexpectedEofError : String := "UnexpectedEof"

/-- `to_tcp_connect_err`. -/
def toTcpConnectErr (err : IoError) : RocStr :=
  match err.kind with
  | .permissionDenied => .fromStr "ErrorKind::PermissionDenied"
  | .addrInUse => .fromStr "ErrorKind::AddrInUse"
  | .addrNotAvailable => .fromStr "ErrorKind::AddrNotAvailable"
  | .connectionRefused => .fromStr "ErrorKind::ConnectionRefused"
  | .interrupted => .fromStr "ErrorKind::Interrupted"
  | .timedOut => .fromStr "ErrorKind::TimedOut"
  | .unsupported => .fromStr "ErrorKind::Unsupported"
  | kind => .fromStr kind.debug

/-- `to_tcp_stream_err`. -/
def toTcpStreamErr (err : IoError) : RocStr :=
  match err.kind with
  | .permissionDenied => .fromStr "ErrorKind::PermissionDenied"
  | .connectionRefused => .fromStr "ErrorKind::ConnectionRefused"
  | .connectionReset => .fromStr "ErrorKind::ConnectionReset"
  | .interrupted => .fromStr "ErrorKind::Interrupted"
  | .outOfMemory => .fromStr "ErrorKind::OutOfMemory"
  | .brokenPipe => .fromStr "ErrorKind::BrokenPipe"
  | kind => .fromStr kind.debug

end BasicCli
