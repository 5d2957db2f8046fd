import Mathlib.Data.List.Basic

/-!
# The run of a program

`rust_main` hands control to the Roc program, which calls back into the host while it runs and
leaves its exit code behind; `DEBUG_OR_EXPECT_CALLED` remembers whether `dbg` or a failed `expect`
was among the callbacks.  Runs that crash, or in which the host exits by itself, do not return to
`rust_main` and are not described here.
-/

namespace BasicCli

/-- `main!`'s result, `Try({}, [Exit(I32), ..])`, with `ε` for the tags of the open union. -/
inductive MainResult (ε : Type)
  | ok
  | exit (code : Int32)
  | other (err : ε)
deriving DecidableEq, Repr

/-- A callback from the Roc program. -/
inductive Callback
  | dbg (message : String)
  | expectFailed (message : String)
  /-- A hosted function that writes `stderr` on standard error. -/
  | hosted (stderr : String)
  | alloc
  | realloc
  | dealloc
deriving DecidableEq, Repr

/-- What the callbacks leave behind in the host. -/
structure HostState where
  debugOrExpectCalled : Bool
  stderr : String
deriving DecidableEq, Repr

/-- `char::is_whitespace`, the Unicode property `White_Space`. -/
def isWhiteSpace (c : Char) : Bool :=
  let n := c.toNat
  (0x9 ≤ n && n ≤ 0xD) || n == 0x20 || n == 0x85 || n == 0xA0 || n == 0x1680
    || (0x2000 ≤ n && n ≤ 0x200A) || n == 0x2028 || n == 0x2029 || n == 0x202F || n == 0x205F
    || n == 0x3000

/-- `str::trim`. -/
def trim (s : String) : String :=
  .ofList (((s.toList.dropWhile isWhiteSpace).reverse.dropWhile isWhiteSpace).reverse)

/-- `roc_dbg_fn`. -/
def rocDbgFn (message : String) (s : HostState) : HostState where
  debugOrExpectCalled := true
  stderr := s.stderr ++ "\x1b[33mdbg:\x1b[0m " ++ message ++ "\n"

/-- `roc_expect_failed_fn`. -/
def rocExpectFailedFn (message : String) (s : HostState) : HostState where
  debugOrExpectCalled := true
  stderr := s.stderr ++ "\x1b[33mexpect failed:\x1b[0m " ++ trim message ++ "\n"

/-- The host's side of a callback. -/
def Callback.run (s : HostState) : Callback → HostState
  | dbg message => rocDbgFn message s
  | expectFailed message => rocExpectFailedFn message s
  | hosted stderr => { s with stderr := s.stderr ++ stderr }
  | alloc | realloc | dealloc => s

/-- `main_for_host!` after `main!` returned `r`: the last callback it makes, if any, and its
result. -/
def mainForHost {ε : Type} (inspect : ε → String) : MainResult ε → List Callback × Int32
  | .ok => ([], 0)
  | .exit code => ([], code)
  | .other err => ([.hosted ("Program exited with error: " ++ inspect err ++ "\n")], 1)

/-- `rust_main`, for a program whose `main!` made `callbacks` and returned `r`.  The value is the
one that `main` returns to the C runtime. -/
def rustMain {ε : Type} (inspect : ε → String) (callbacks : List Callback) (r : MainResult ε) :
    Int32 :=
  let (last, exitCode) := mainForHost inspect r
  let s := (callbacks ++ last).foldl (fun s c => c.run s) ⟨false, ""⟩
  -- Only a code of exactly zero is changed.
  if s.debugOrExpectCalled && exitCode == 0 then 1 else exitCode

/-- The status that the parent process observes: the low 8 bits. -/
def observedStatus (code : Int32) : UInt8 := code.toUInt32.toUInt8

end BasicCli
