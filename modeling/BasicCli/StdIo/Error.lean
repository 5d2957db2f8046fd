/-!
# `std::io::Error`
-/

namespace BasicCli

/-- `std::io::ErrorKind`. -/
inductive ErrorKind
  | notFound | permissionDenied | connectionRefused | connectionReset | hostUnreachable
  | networkUnreachable | connectionAborted | notConnected | addrInUse | addrNotAvailable
  | networkDown | brokenPipe | alreadyExists | wouldBlock | notADirectory | isADirectory
  | directoryNotEmpty | readOnlyFilesystem | filesystemLoop | staleNetworkFileHandle
  | invalidInput | invalidData | timedOut | writeZero | storageFull | notSeekable | quotaExceeded
  | fileTooLarge | resourceBusy | executableFileBusy | deadlock | crossesDevices | tooManyLinks
  | invalidFilename | argumentListTooLong | interrupted | unsupported | unexpectedEof
  | outOfMemory | inProgress | other | uncategorized
deriving DecidableEq, Repr

/-- `std::io::Error`: its `kind()` and the text its `Display` prints. -/
structure IoError where
  kind : ErrorKind
  message : String
deriving DecidableEq, Repr

end BasicCli
