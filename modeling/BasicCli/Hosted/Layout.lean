import BasicCli.Command.Exec
import BasicCli.Hosted.Table

/-!
# Arguments and results of hosted functions in memory

What a hosted function finds behind `args_ptr`, and what it leaves behind `ret_ptr`.  Roc goes by
the types that the modules of `platform/` declare, the host by the Rust types that `src/lib.rs`
casts the pointers to.  Each side has its own table of the functions, and the two agree
(`castArgs_eq`, `castRet_eq`).
-/

namespace BasicCli

open Layout Memory

/-! ### Arguments -/

/-- The arguments of a function that the platform declares. -/
inductive RocArgs
  /-- `{}` -/
  | unit
  /-- `Str` -/
  | str
  /-- `U64` -/
  | u64
  /-- `Str, List(U8)` -/
  | strBytes
  /-- `Str, Str` -/
  | strStr
  /-- `Cmd` -/
  | cmd
deriving DecidableEq, Repr

/-- What the host casts `args_ptr` to. -/
inductive RustArgs
  /-- it does not look there -/
  | unread
  /-- `*const RocStr` -/
  | rocStr
  /-- `*const u64` -/
  | u64
  /-- `*const (RocStr, RocList<u8>)` -/
  | rocStrBytes
  /-- `*const (RocStr, RocStr)` -/
  | rocStrStr
  /-- `*const roc_command::Command` -/
  | command
deriving DecidableEq, Repr

/-- The fields of a tuple of two `RocStr`s or lists.  Their order in memory is not specified;
`inOrder` says that the compiler has kept that of the type. -/
def pairFields (inOrder : Bool) : List (String × Shape) :=
  if inOrder then [("0", words.shape), ("1", words.shape)]
  else [("1", words.shape), ("0", words.shape)]

/-- A tuple, as the host finds it. -/
def Host.pair (inOrder : Bool) : Reader (Words × Words) where
  shape := recordShape Prod.snd (pairFields inOrder)
  read m a := do
    let fst ← Reader.readField (pairFields inOrder) "0" words.reader m a
    let snd ← Reader.readField (pairFields inOrder) "1" words.reader m a
    some (fst, snd)

/-- Two arguments, as Roc puts them in memory. -/
def Roc.pair : Writer (Words × Words) :=
  .record (rocOrder Writer.Field.name Writer.Field.shape
    [⟨"0", words.comap Prod.fst⟩, ⟨"1", words.comap Prod.snd⟩])

namespace RustArgs

/-- The arguments in the host. -/
abbrev Val : RustArgs → Type
  | unread => Unit
  | rocStr => Words
  | u64 => UInt64
  | rocStrBytes | rocStrStr => Words × Words
  | command => Command Words Words

/-- Arguments, as the host finds them. -/
def reader (inOrder : Bool) : (k : RustArgs) → Reader k.Val
  | unread => Codec.unit.reader
  | rocStr => words.reader
  | u64 => Codec.u64.reader
  | rocStrBytes | rocStrStr => Host.pair inOrder
  | command => Host.command

end RustArgs

namespace RocArgs

/-- The arguments in Roc. -/
abbrev Val : RocArgs → Type
  | unit => Unit
  | str => Words
  | u64 => UInt64
  | strBytes | strStr => Words × Words
  | cmd => CmdRecord Words Words

/-- Arguments, as Roc puts them in memory. -/
def writer : (k : RocArgs) → Writer k.Val
  | unit => Codec.unit.toWriter
  | str => words.toWriter
  | u64 => Codec.u64.toWriter
  | strBytes | strStr => Roc.pair
  | cmd => Roc.cmd

/-- The Rust types that stand for the types in Roc. -/
def rust : RocArgs → RustArgs
  | unit => .unread
  | str => .rocStr
  | u64 => .u64
  | strBytes => .rocStrBytes
  | strStr => .rocStrStr
  | cmd => .command

/-- The arguments that the host should find. -/
def toHost : (k : RocArgs) → k.Val → k.rust.Val
  | unit, v | str, v | u64, v | strBytes, v | strStr, v => v
  | cmd, v => v.toCommand

end RocArgs

/-! ### Payloads of `Ok` -/

/-- The payload that the platform declares. -/
inductive RocOk
  | unit | bool | i32 | u32 | u64 | str
  /-- `List(U8)` -/
  | bytes
  /-- `List(Str)` -/
  | strs
deriving DecidableEq, Repr

/-- The payload in the host. -/
inductive RustOk
  | unit | bool | i32 | u32 | u64 | rocStr
  /-- `RocList<u8>` -/
  | rocBytes
  /-- `RocList<RocStr>` -/
  | rocStrs
deriving DecidableEq, Repr

/-- The tags of `Bool`. -/
inductive BoolTag
  | false | true
deriving DecidableEq, Repr

/-- The name of a tag of `Bool`. -/
def BoolTag.name : BoolTag → String
  | false => "False"
  | true => "True"

namespace RustOk

/-- The values. -/
abbrev Val : RustOk → Type
  | unit => Unit
  | bool => Bool
  | i32 => Int32
  | u32 => UInt32
  | u64 => UInt64
  | rocStr | rocBytes | rocStrs => Words

/-- A payload, as the host writes it. -/
def writer : (k : RustOk) → Writer k.Val
  | unit => Codec.unit.toWriter
  | bool => Codec.u8.comap fun b => if b then 1 else 0
  | i32 => Codec.i32.toWriter
  | u32 => Codec.u32.toWriter
  | u64 => Codec.u64.toWriter
  | rocStr | rocBytes | rocStrs => words.toWriter

end RustOk

namespace RocOk

/-- The values. -/
abbrev Val : RocOk → Type
  | unit => Unit
  | bool => Bool
  | i32 => Int32
  | u32 => UInt32
  | u64 => UInt64
  | str | bytes | strs => Words

/-- A payload, as Roc finds it. -/
def reader : (k : RocOk) → Reader k.Val
  | unit => Codec.unit.reader
  | bool => .rocUnion BoolTag.name
      (fun
        | .false => .const false
        | .true => .const true)
      [.false, .true]
  | i32 => Codec.i32.reader
  | u32 => Codec.u32.reader
  | u64 => Codec.u64.reader
  | str | bytes | strs => words.reader

/-- The Rust type that stands for the type in Roc. -/
def rust : RocOk → RustOk
  | unit => .unit
  | bool => .bool
  | i32 => .i32
  | u32 => .u32
  | u64 => .u64
  | str => .rocStr
  | bytes => .rocBytes
  | strs => .rocStrs

/-- The payload that Roc should find. -/
def ofHost : (k : RocOk) → k.rust.Val → k.Val
  | unit, v | bool, v | i32, v | u32, v | u64, v | str, v | bytes, v | strs, v => v

end RocOk

/-! ### Results -/

/-- The result that the platform declares. -/
inductive RocRet
  /-- `{}` -/
  | unit
  /-- `Str` -/
  | str
  /-- `U128` -/
  | u128
  /-- `Try(ok, [..Err(IOErr)])` with the `IOErr` of a module -/
  | tryErr (roc : RocModule) (ok : RocOk)
  /-- `Try(I32, [CmdErr(IOErr)])` -/
  | cmdExitCode
  /-- the result of `Cmd.exec_output!` -/
  | cmdOutput
deriving DecidableEq, Repr

/-- What the host casts `ret_ptr` to. -/
inductive RustRet
  /-- it writes nothing -/
  | unwritten
  /-- `*mut RocStr` -/
  | rocStr
  /-- `*mut u128` -/
  | u128
  /-- `*mut RocTry<ok, RocSingleTagWrapper<IOErr>>`, by one of its names -/
  | rocTry (ok : RustOk)
  /-- `*mut TryI32CmdErr` -/
  | tryI32CmdErr
  /-- `*mut TryCmdOutputResult` -/
  | tryCmdOutputResult
deriving DecidableEq, Repr

/-- A union of one tag that has a payload. -/
def Roc.singleTag {α : Type} (name : String) (payload : Reader α) : Reader α :=
  .rocUnion (fun _ => name) (fun () => payload) [()]

/-- The name of the tag that `module`'s errors come in. -/
def RocModule.errTag : RocModule → String
  | cmd => "CmdErr"
  | dir => "DirErr"
  | file => "FileErr"
  | path => "PathErr"
  | random => "RandomErr"

namespace RustRet

/-- What the standard library has answered when the host begins to make a result of it. -/
abbrev StdVal : RustRet → Type
  | unwritten => Unit
  | rocStr => RocStr
  | u128 => BitVec 128
  | rocTry ok => Except IoError ok.Val
  | tryI32CmdErr => Except IoError (Option Int32)
  | tryCmdOutputResult => Except IoError Output

/-- The result in the host. -/
abbrev Val : RustRet → Type
  | unwritten => Unit
  | rocStr => Words
  | u128 => BitVec 128
  | rocTry ok => Except (IOErr Words) ok.Val
  | tryI32CmdErr => Except (IOErr Words) Int32
  | tryCmdOutputResult => Except (CmdOutputErr Words) (CmdOutputSuccess Words)

/-- The result that a hosted function makes, with the words of a `RocStr`. -/
def result (wordsOf : RocStr → Words) : (k : RustRet) → k.StdVal → k.Val
  | unwritten, v | u128, v => v
  | rocStr, v => wordsOf v
  | rocTry _, .ok v => .ok v
  | rocTry _, .error e => .error (.fromIoError (fun s => wordsOf (.fromStr s)) e)
  | tryI32CmdErr, status => hostedCmdExecExitCode (fun s => wordsOf (.fromStr s)) status
  | tryCmdOutputResult, output => hostedCmdExecOutput (fun s => wordsOf (.fromStr s)) output

/-- The answer that a function fails with, if it can fail. -/
def fail (e : IoError) : (k : RustRet) → k.StdVal
  | unwritten => ()
  | rocStr => .empty
  | u128 => 0
  | rocTry _ | tryI32CmdErr | tryCmdOutputResult => .error e

/-- A result, as the host writes it. -/
def writer : (k : RustRet) → Writer k.Val
  | unwritten => Codec.unit.toWriter
  | rocStr => words.toWriter
  | u128 => Codec.u128.toWriter
  | rocTry ok => Host.rocTry ok.writer (Host.rocSingleTagWrapper Host.ioErr)
  | tryI32CmdErr => Host.tryI32CmdErr
  | tryCmdOutputResult => Host.tryCmdOutputResult

end RustRet

namespace RocRet

/-- The result in Roc. -/
abbrev Val : RocRet → Type
  | unit => Unit
  | str => Words
  | u128 => BitVec 128
  | tryErr _ ok => Except (RocIOErr Words) ok.Val
  | cmdExitCode => Except (RocCmdErr Words) Int32
  | cmdOutput => Except (RocCmdOutputErr Words) (RocCmdOutput Words)

/-- A result, as Roc finds it. -/
def reader : (k : RocRet) → Reader k.Val
  | unit => Codec.unit.reader
  | str => words.reader
  | u128 => Codec.u128.reader
  | tryErr roc ok => Roc.tryUnion ok.reader (Roc.singleTag roc.errTag (Roc.ioErr roc))
  | cmdExitCode => Roc.execExitCode
  | cmdOutput => Roc.execOutput

/-- The Rust types that stand for the types in Roc. -/
def rust : RocRet → RustRet
  | unit => .unwritten
  | str => .rocStr
  | u128 => .u128
  | tryErr _ ok => .rocTry ok.rust
  | cmdExitCode => .tryI32CmdErr
  | cmdOutput => .tryCmdOutputResult

end RocRet

/-! ### The two tables -/

namespace HostedFn

/-- The arguments of a function, as its module in `platform/` declares them. -/
def declaredArgs : HostedFn → RocArgs
  | cmdExecExitCode => .cmd
  | cmdExecOutput => .cmd
  | dirCreate | dirCreateAll | dirDeleteEmpty | dirDeleteAll => .str
  | dirList => .str
  | envVar => .str
  | envCwd | envExePath => .unit
  | fileReadBytes => .str
  | fileWriteBytes => .strBytes
  | fileReadUtf8 => .str
  | fileWriteUtf8 => .strStr
  | fileDelete => .str
  | pathIsFile | pathIsDir | pathIsSymLink => .str
  | randomSeedU64 | randomSeedU32 => .unit
  | sleepMillis => .u64
  | stdinLine => .unit
  | stdoutLine | stdoutWrite => .str
  | stderrLine | stderrWrite => .str
  | utcNow => .unit

/-- The result of a function, as its module in `platform/` declares it. -/
def declaredRet : HostedFn → RocRet
  | cmdExecExitCode => .cmdExitCode
  | cmdExecOutput => .cmdOutput
  | dirCreate | dirCreateAll | dirDeleteEmpty | dirDeleteAll => .tryErr .dir .unit
  | dirList => .tryErr .dir .strs
  | envVar | envCwd | envExePath => .str
  | fileReadBytes => .tryErr .file .bytes
  | fileWriteBytes => .tryErr .file .unit
  | fileReadUtf8 => .tryErr .file .str
  | fileWriteUtf8 => .tryErr .file .unit
  | fileDelete => .tryErr .file .unit
  | pathIsFile | pathIsDir | pathIsSymLink => .tryErr .path .bool
  | randomSeedU64 => .tryErr .random .u64
  | randomSeedU32 => .tryErr .random .u32
  | sleepMillis => .unit
  | stdinLine => .str
  | stdoutLine | stdoutWrite => .unit
  | stderrLine | stderrWrite => .unit
  | utcNow => .u128

/-- What a hosted function of `src/lib.rs` casts `args_ptr` to. -/
def castArgs : HostedFn → RustArgs
  | cmdExecExitCode | cmdExecOutput => .command
  | dirCreate | dirCreateAll | dirDeleteAll | dirDeleteEmpty | dirList => .rocStr
  | envCwd => .unread
  | envExePath => .unread
  | envVar => .rocStr
  | fileDelete | fileReadBytes | fileReadUtf8 => .rocStr
  | fileWriteBytes => .rocStrBytes
  | fileWriteUtf8 => .rocStrStr
  | pathIsDir | pathIsFile | pathIsSymLink => .rocStr
  | randomSeedU32 | randomSeedU64 => .unread
  | sleepMillis => .u64
  | stderrLine | stderrWrite => .rocStr
  | stdinLine => .unread
  | stdoutLine | stdoutWrite => .rocStr
  | utcNow => .unread

/-- What a hosted function of `src/lib.rs` casts `ret_ptr` to: `TryUnitDirErr` is
`RocTry<(), DirErr>`, and so on. -/
def castRet : HostedFn → RustRet
  | cmdExecExitCode => .tryI32CmdErr
  | cmdExecOutput => .tryCmdOutputResult
  -- `TryUnitDirErr`, `TryListStrDirErr`
  | dirCreate | dirCreateAll | dirDeleteAll | dirDeleteEmpty => .rocTry .unit
  | dirList => .rocTry .rocStrs
  | envCwd | envExePath | envVar => .rocStr
  -- `TryUnitFileErr`, `TryBytesFileErr`, `TryStrFileErr`
  | fileDelete => .rocTry .unit
  | fileReadBytes => .rocTry .rocBytes
  | fileReadUtf8 => .rocTry .rocStr
  | fileWriteBytes | fileWriteUtf8 => .rocTry .unit
  -- `TryBoolPathErr`
  | pathIsDir | pathIsFile | pathIsSymLink => .rocTry .bool
  -- `TryU32RandomErr`, `TryU64RandomErr`
  | randomSeedU32 => .rocTry .u32
  | randomSeedU64 => .rocTry .u64
  | sleepMillis => .unwritten
  | stderrLine | stderrWrite => .unwritten
  | stdinLine => .rocStr
  | stdoutLine | stdoutWrite => .unwritten
  | utcNow => .u128

/-- **The host casts arguments** to the types that stand for the declared ones. -/
theorem castArgs_eq (f : HostedFn) : f.castArgs = f.declaredArgs.rust := by
  cases f <;> rfl

/-- **The host casts results** to the types that stand for the declared ones. -/
theorem castRet_eq (f : HostedFn) : f.castRet = f.declaredRet.rust := by
  cases f <;> rfl

end HostedFn

end BasicCli
