import BasicCli.Hosted.Layout

/-!
# Programs and the host

A Roc program by the hosted functions that it calls, and how it runs: a call puts its arguments in
memory, jumps through the table of the host, and reads its result where the host has put it.
-/

namespace BasicCli

open Layout Memory

/-- What the bodies of the hosted functions do to the world, between finding their arguments and
making a result for Roc. -/
abbrev HostBody (W : Type) := (f : HostedFn) → f.castArgs.Val → W → f.castRet.StdVal × W

/-- Where a call is made: the memory, the place for its arguments, the place for its result, and the
words of the `RocStr`s that the host makes. -/
structure CallSite where
  mem : Mem
  argsPtr : ℕ
  retPtr : ℕ
  wordsOf : RocStr → Words

/-- A Roc program, by its hosted functions. -/
inductive Program (ρ : Type)
  | done (r : ρ)
  | call (f : HostedFn) (args : f.declaredArgs.Val) (k : f.declaredRet.Val → Program ρ)

section

variable {W : Type} (inOrder : Bool) (body : HostBody W)

namespace HostedFn

/-- A hosted function in the host, by its casts: `none` if it finds nothing that it can read. -/
def exec (site : CallSite) (f : HostedFn) (m : Mem) (w : W) : Option (Mem × W) := do
  let args ← (f.castArgs.reader inOrder).read m site.argsPtr
  let (std, w) := body f args w
  some (f.castRet.writer.write m site.retPtr (f.castRet.result site.wordsOf std), w)

/-- A call in Roc, which knows an index and the declared types: the memory that it leaves, its
result and the world. -/
def callHosted (site : CallSite) (f : HostedFn) (args : f.declaredArgs.Val) (w : W) :
    Option (Mem × f.declaredRet.Val × W) := do
  let m := f.declaredArgs.writer.write site.mem site.argsPtr args
  let g ← hostedFns[f.index]?
  let (m, w) ← g.exec inOrder body site m w
  let r ← f.declaredRet.reader.read m site.retPtr
  some (m, r, w)

end HostedFn

namespace Program

variable {ρ : Type}

/-- Run a program through memory and the table, its `n`-th call being made at `sites n`. -/
def runHosted (sites : ℕ → CallSite) : (n : ℕ) → Program ρ → W → Option (ρ × W)
  | _, done r, w => some (r, w)
  | n, call f args k, w => do
    let (_, r, w) ← f.callHosted inOrder body (sites n) args w
    (k r).runHosted sites (n + 1) w

end Program

end

end BasicCli
