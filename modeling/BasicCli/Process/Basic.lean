import BasicCli.Alloc.Basic
import BasicCli.Command.Exec
import BasicCli.Console.Basic
import BasicCli.Hosted.Text
import BasicCli.Main.Basic
import BasicCli.Memory.CString

/-!
# One program runs another

What passes between a process that runs a `Cmd` and the process that it starts: arguments and
environment on the way there, the bytes of the standard streams and the status on the way back.  The
one that is started is a Roc program of this platform, too.
-/

namespace BasicCli

open Memory StdIo

/-! ### On the way there -/

/-- The error of `std` for a command that no C strings can hold. -/
def nulByteFound : IoError := ⟨.invalidInput, "nul byte found in provided data"⟩

/-- The environment of a process, names with values.  A name is not empty and has no `=`. -/
structure Environ where
  vars : List (List UInt8 × List UInt8)
  nodup : (vars.map Prod.fst).Nodup
  name_ne_nil : ∀ var ∈ vars, var.1 ≠ []
  eq_notMem : ∀ var ∈ vars, 61 ∉ var.1

/-- `NAME=value` -/
def environEntry (name value : List UInt8) : List UInt8 := name ++ 61 :: value

namespace StdCommand

variable (cmd : StdCommand)

/-- The arguments of the new process, the name of the program before the others. -/
def argv : List (List UInt8) := (cmd.program :: cmd.args).map strBytes

/-- The strings of the environment that the new process gets: the variables of the command, and,
unless it was cleared, those of the environment that are not among them. -/
structure EnvBlock (environ : Environ) (block : List (List UInt8)) : Prop where
  mem_iff : ∀ entry, entry ∈ block ↔
    (∃ key value, cmd.vars key = some value ∧
      entry = environEntry (strBytes key) (strBytes value)) ∨
    (cmd.envClear = false ∧ ∃ var ∈ environ.vars,
      (∀ key, strBytes key = var.1 → cmd.vars key = none) ∧ entry = environEntry var.1 var.2)

/-- `Command::spawn`, up to the new process: the arguments and the environment that it is given. -/
def spawn (block : List (List UInt8)) : Except IoError (List (List UInt8) × List (List UInt8)) :=
  if ∃ s ∈ cmd.argv ++ block, 0 ∈ s then .error nulByteFound else .ok (cmd.argv, block)

end StdCommand

/-! ### In the new process -/

/-- In memory the arguments are an array of pointers to C strings, with a null pointer at its
end. -/
def ArgvAt (m : Mem) : (argv : ℕ) → List (List UInt8) → Prop
  | argv, [] => readUsize m argv = 0
  | argv, arg :: args =>
    readUsize m argv ≠ 0 ∧ CStrAt m (readUsize m argv) arg ∧ ArgvAt m (argv + 8) args

/-- The loop of `build_args_list`, with `n` arguments left; `none` means that a string does not
end. -/
def buildArgsLoop (m : Mem) (fuel : ℕ) : (n argv : ℕ) → Option (List RocStr)
  | 0, _ => some []
  | n + 1, argv =>
    let argPtr := readUsize m argv
    if argPtr = 0 then some []
    else do
      let cStr ← cStr m fuel argPtr
      let rocStr := RocStr.fromStr (Utf8.fromUtf8Lossy cStr)
      let list ← buildArgsLoop m fuel n (argv + 8)
      some (rocStr :: list)

/-- `build_args_list`, in the memory of the process. -/
def buildArgsListAt (m : Mem) (fuel : ℕ) (argc : Int32) (argv : ℕ) : Option (List RocStr) :=
  if argc ≤ 0 ∨ argv = 0 then some [] else buildArgsLoop m fuel argc.toInt.toNat argv

/-- `getenv`, for a name without `=`. -/
def getenv (block : List (List UInt8)) (name : List UInt8) : Option (List UInt8) :=
  if name = [] then none
  else block.findSome? fun entry =>
    if name ++ [61] <+: entry then some (entry.drop (name.length + 1)) else none

/-- What a program does to its standard output and its standard error. -/
inductive ChildAct
  | stdoutLine (message : String)
  | stdoutWrite (message : String)
  | stderrLine (message : String)
  | stderrWrite (message : String)
  | dbg (message : String)
  | expectFailed (message : String)
deriving DecidableEq, Repr

/-- `roc_dbg_fn`, on the console. -/
def consoleDbg (message : String) : StateM Console Unit :=
  Console.ignore (Console.writeFmt Console.stderrWriteAll
    [strBytes "\x1b[33mdbg:\x1b[0m ", strBytes message, [10]])

/-- `roc_expect_failed_fn`, on the console. -/
def consoleExpectFailed (message : String) : StateM Console Unit :=
  Console.ignore (Console.writeFmt Console.stderrWriteAll
    [strBytes "\x1b[33mexpect failed:\x1b[0m ", strBytes (trim message), [10]])

namespace ChildAct

/-- What an act does to the console. -/
def run : ChildAct → StateM Console Unit
  | stdoutLine message => hostedStdoutLine (.fromStr message)
  | stdoutWrite message => hostedStdoutWrite (.fromStr message)
  | stderrLine message => hostedStderrLine (.fromStr message)
  | stderrWrite message => hostedStderrWrite (.fromStr message)
  | dbg message => consoleDbg message
  | expectFailed message => consoleExpectFailed message

/-- An act as a callback to the host. -/
def callback : ChildAct → Callback
  | stdoutLine _ | stdoutWrite _ => .hosted ""
  | stderrLine message => .hosted (message ++ "\n")
  | stderrWrite message => .hosted message
  | dbg message => .dbg message
  | expectFailed message => .expectFailed message

end ChildAct

/-- The acts of `main_for_host!` behind those of `main!`. -/
def lastActs {ε : Type} (inspect : ε → String) : MainResult ε → List ChildAct
  | .ok | .exit _ => []
  | .other err => [.stderrLine ("Program exited with error: " ++ inspect err)]

/-! ### On the way back -/

/-- What `Command::output` collects of a program that has done `acts` and whose `main!` has returned
`r`, where `events` is what becomes of its writes to the pipes. -/
def childOutput {ε : Type} (inspect : ε → String) (events : Fd → List SinkEvent)
    (acts : List ChildAct) (r : MainResult ε) : Output :=
  let (_, console) := ((acts ++ lastActs inspect r).forM ChildAct.run) (Console.init events)
  let read fd := (console.written.filter fun b => b.1 = fd).map Prod.snd
  let status := observedStatus (rustMain inspect (acts.map ChildAct.callback) r)
  { code := some (.ofNat status.toNat), stdout := read .stdout, stderr := read .stderr }

end BasicCli
