import BasicCli.Layout.Alphabetical

/-!
# The table of hosted functions

`HOSTED_FNS` of `src/lib.rs`.  A Roc program does not name the hosted function that it calls: the
platform's functions without a body are numbered in the alphabetical order of their qualified names,
and the number is an index into the host's table.
-/

namespace BasicCli

open Layout

/-- The hosted functions of `src/lib.rs`. -/
inductive HostedFn
  | cmdExecExitCode | cmdExecOutput
  | dirCreate | dirCreateAll | dirDeleteAll | dirDeleteEmpty | dirList
  | envCwd | envExePath | envVar
  | fileDelete | fileReadBytes | fileReadUtf8 | fileWriteBytes | fileWriteUtf8
  | pathIsDir | pathIsFile | pathIsSymLink
  | randomSeedU32 | randomSeedU64
  | sleepMillis
  | stderrLine | stderrWrite
  | stdinLine
  | stdoutLine | stdoutWrite
  | utcNow
deriving DecidableEq, Repr

/-- `HOSTED_FNS`. -/
def hostedFns : List HostedFn :=
  [.cmdExecExitCode, .cmdExecOutput, .dirCreate, .dirCreateAll, .dirDeleteAll, .dirDeleteEmpty,
    .dirList, .envCwd, .envExePath, .envVar, .fileDelete, .fileReadBytes, .fileReadUtf8,
    .fileWriteBytes, .fileWriteUtf8, .pathIsDir, .pathIsFile, .pathIsSymLink, .randomSeedU32,
    .randomSeedU64, .sleepMillis, .stderrLine, .stderrWrite, .stdinLine, .stdoutLine, .stdoutWrite,
    .utcNow]

/-- The functions that the platform declares without a body: its modules in the order of
`platform/main.roc`, and those of a module in the order of its declarations. -/
def platformFns : List HostedFn :=
  [.cmdExecExitCode, .cmdExecOutput,
    .dirCreate, .dirCreateAll, .dirDeleteEmpty, .dirDeleteAll, .dirList,
    .envVar, .envCwd, .envExePath,
    .fileReadBytes, .fileWriteBytes, .fileReadUtf8, .fileWriteUtf8, .fileDelete,
    .pathIsFile, .pathIsDir, .pathIsSymLink,
    .randomSeedU64, .randomSeedU32,
    .sleepMillis,
    .stdinLine,
    .stdoutLine, .stdoutWrite,
    .stderrLine, .stderrWrite,
    .utcNow]

namespace HostedFn

/-- The name of the function of the platform that a hosted function is written for. -/
def qualifiedName : HostedFn → String
  | cmdExecExitCode => "Cmd.exec_exit_code!"
  | cmdExecOutput => "Cmd.exec_output!"
  | dirCreate => "Dir.create!"
  | dirCreateAll => "Dir.create_all!"
  | dirDeleteAll => "Dir.delete_all!"
  | dirDeleteEmpty => "Dir.delete_empty!"
  | dirList => "Dir.list!"
  | envCwd => "Env.cwd!"
  | envExePath => "Env.exe_path!"
  | envVar => "Env.var!"
  | fileDelete => "File.delete!"
  | fileReadBytes => "File.read_bytes!"
  | fileReadUtf8 => "File.read_utf8!"
  | fileWriteBytes => "File.write_bytes!"
  | fileWriteUtf8 => "File.write_utf8!"
  | pathIsDir => "Path.is_dir!"
  | pathIsFile => "Path.is_file!"
  | pathIsSymLink => "Path.is_sym_link!"
  | randomSeedU32 => "Random.seed_u32!"
  | randomSeedU64 => "Random.seed_u64!"
  | sleepMillis => "Sleep.millis!"
  | stderrLine => "Stderr.line!"
  | stderrWrite => "Stderr.write!"
  | stdinLine => "Stdin.line!"
  | stdoutLine => "Stdout.line!"
  | stdoutWrite => "Stdout.write!"
  | utcNow => "Utc.now!"

/-- The index that Roc calls a function of the platform by. -/
def index (f : HostedFn) : ℕ := tagNumber qualifiedName platformFns f

theorem mem_platformFns (f : HostedFn) : f ∈ platformFns := by
  cases f <;> decide

/-- The host's table is in the order that Roc numbers the functions in. -/
theorem alphabetical_platformFns : alphabetical qualifiedName platformFns = hostedFns := by
  decide +kernel

/-- **A function of the platform finds its own host function** in the table. -/
theorem getElem?_hostedFns_index (f : HostedFn) : hostedFns[f.index]? = some f := by
  have h := tagAt?_tagNumber qualifiedName f.mem_platformFns
  rwa [tagAt?, alphabetical_platformFns] at h

end HostedFn

end BasicCli
