import BasicCli.Command.Equiv.Exec
import BasicCli.Hosted.Call

/-!
# Programs call the functions they name

`Program.run` is what a program says: a call is a call of the function that it names, and its errors
come under the tags that the module declares.  Running the program through memory and the host's
table gives the same (`Program.runHosted_eq`), as long as no function of `Dir` fails with an error
whose number means something else there.
-/

namespace BasicCli

open Layout Memory

variable {m : Mem} {a : ℕ}

/-! ### What a program says -/

/-- What Roc should see for what the standard library has answered. -/
def RocRet.reported (wordsOf : RocStr → Words) : (k : RocRet) → k.rust.StdVal → k.Val
  | unit, v | u128, v => v
  | str, v => wordsOf v
  | tryErr _ ok, .ok v => .ok (ok.ofHost v)
  | tryErr roc _, .error e => .error ((roc.reported e).map wordsOf)
  | cmdExitCode, status =>
    (verdict (status.map fun code => ⟨code, [], []⟩)).exitCode fun s => wordsOf (.fromStr s)
  | cmdOutput, output => (verdict output).output fun s => wordsOf (.fromStr s)

/-- A function of `Dir` has failed with an error that Roc takes for another. -/
def RocRet.Misread : (k : RocRet) → k.rust.StdVal → Prop
  | tryErr .dir _, .error e => e.kind ∈ RocModule.dirMisread
  | _, _ => False

namespace HostedFn

/-- The arguments that the host should find, by the types that it casts to. -/
def toHost (f : HostedFn) (args : f.declaredArgs.Val) : f.castArgs.Val :=
  cast (congrArg RustArgs.Val f.castArgs_eq.symm) (f.declaredArgs.toHost args)

/-- What the host's function has answered, by the declared types. -/
def ofStd (f : HostedFn) (std : f.castRet.StdVal) : f.declaredRet.rust.StdVal :=
  cast (congrArg RustRet.StdVal f.castRet_eq) std

/-- What Roc should see of a call. -/
def reported (f : HostedFn) (wordsOf : RocStr → Words) (std : f.castRet.StdVal) :
    f.declaredRet.Val := f.declaredRet.reported wordsOf (f.ofStd std)

/-- Roc takes the error of a call for another. -/
def Misread (f : HostedFn) (std : f.castRet.StdVal) : Prop := f.declaredRet.Misread (f.ofStd std)

end HostedFn

namespace Program

variable {W ρ : Type} (body : HostBody W) (sites : ℕ → CallSite)

/-- Run a program by what it says. -/
def run : (n : ℕ) → Program ρ → W → ρ × W
  | _, done r, w => (r, w)
  | n, call f args k, w =>
    let (std, w) := body f (f.toHost args) w
    (k (f.reported (sites n).wordsOf std)).run (n + 1) w

/-- No call of the run fails so that Roc takes the error for another. -/
def NoMisread : (n : ℕ) → Program ρ → W → Prop
  | _, done _, _ => True
  | n, call f args k, w =>
    let (std, w) := body f (f.toHost args) w
    ¬ f.Misread std ∧ (k (f.reported (sites n).wordsOf std)).NoMisread (n + 1) w

end Program

/-! ### Arguments -/

theorem read_pair {v : Words × Words} (h : Roc.pair.At m a v) :
    (Host.pair true).read m a = some v := by
  have hfst : Reader.readField (pairFields true) "0" words.reader m a = some v.1 :=
    h.readField (by decide) (by decide) (.head _) fun _ => words.read_reader
  have hsnd : Reader.readField (pairFields true) "1" words.reader m a = some v.2 :=
    h.readField (by decide) (by decide) (.tail _ (.head _)) fun _ => words.read_reader
  unfold Host.pair
  dsimp only
  rw [hfst, hsnd]
  rfl

/-- **The Rust types find the arguments** that Roc has put in memory. -/
theorem RocArgs.read_rust {k : RocArgs} {v : k.Val} (h : k.writer.At m a v) :
    (k.rust.reader true).read m a = some (k.toHost v) := by
  cases k with
  | unit => exact Codec.unit.read_of_at h
  | str => exact words.read_of_at h
  | u64 => exact Codec.u64.read_of_at h
  | strBytes | strStr => exact read_pair h
  | cmd => exact read_command h

/-- **The host finds the arguments**, as it casts to the right types. -/
theorem HostedFn.read_args {f : HostedFn} {v : f.declaredArgs.Val}
    (h : f.declaredArgs.writer.At m a v) :
    (f.castArgs.reader true).read m a = some (f.toHost v) := by
  have hread : ∀ k (hk : k = f.declaredArgs.rust),
      (k.reader true).read m a =
        some (cast (congrArg RustArgs.Val hk.symm) (f.declaredArgs.toHost v)) := by
    rintro _ rfl
    exact RocArgs.read_rust h
  exact hread _ f.castArgs_eq

/-! ### Payloads -/

theorem RocOk.read_rust {k : RocOk} {v : k.rust.Val} (h : k.rust.writer.At m a v) :
    k.reader.read m a = some (k.ofHost v) := by
  cases k with
  | unit => exact Codec.unit.read_of_at h
  | bool =>
    have hread : ∀ b : Bool, (RustOk.writer .bool).At m a b →
        (RocOk.reader .bool).read m a = some b := by
      intro b h
      have hbyte : m a = if b then 1 else 0 := Option.some.inj (Codec.u8.read_reader h)
      show (tagAt? BoolTag.name [.false, .true] (m (a + 0)).toNat).bind _ = _
      rw [Nat.add_zero, hbyte]
      cases b <;> rfl
    exact hread v h
  | i32 => exact Codec.i32.read_of_at h
  | u32 => exact Codec.u32.read_of_at h
  | u64 => exact Codec.u64.read_of_at h
  | str | bytes | strs => exact words.read_of_at h

/-- A union of one tag is its payload. -/
theorem read_singleTag {α : Type} {payload : Writer α} {name : String} {β : Type}
    {payload' : Reader β} {v : α} {b : β}
    (h : (Host.rocSingleTagWrapper payload).At m a v)
    (hoffset : discriminantOffset [payload'.shape] = payload.shape.size)
    (hread : payload.At m a v → payload'.read m a = some b) :
    (Roc.singleTag name payload').read m a = some b :=
  h.read_rocUnion hoffset (List.mem_singleton.mpr rfl) (by rw [tagNumber]; rfl) hread

/-! ### Errors -/

theorem RocModule.decodeIOErr_map {σ τ : Type} (roc : RocModule) (f : σ → τ) (discriminant : UInt8)
    (payload : Option σ) :
    roc.decodeIOErr discriminant (payload.map f) =
      (roc.decodeIOErr discriminant payload).map (RocIOErr.map f) := by
  unfold decodeIOErr
  cases tagAt? RocTag.name roc.ioErr discriminant.toNat with
  | none => rfl
  | some t => cases t <;> cases payload <;> rfl

/-- What a module reads of an error that none of its tags is mistaken in. -/
theorem RocModule.decode_fromIoError_reported {roc : RocModule} {e : IoError}
    (he : roc = .dir → e.kind ∉ dirMisread) :
    roc.decode (.fromIoError .fromStr e) = some (roc.reported e) := by
  by_cases hroc : roc = .dir
  · have hkind := he hroc
    subst hroc
    rw [decode_fromIoError_dir, reported_dir]
    obtain ⟨kind, message⟩ := e
    cases kind <;> simp_all [dirMisread]
  · exact decode_fromIoError_of_ne_dir hroc e

theorem read_ioErr_fromIoError {roc : RocModule} {wordsOf : RocStr → Words} {e : IoError}
    (he : roc = .dir → e.kind ∉ RocModule.dirMisread)
    (h : Host.ioErr.At m a (.fromIoError (fun s => wordsOf (.fromStr s)) e)) :
    (Roc.ioErr roc).read m a = some ((roc.reported e).map wordsOf) := by
  -- Whatever is made of the message, the tag and the place of the payload are the same.
  have htag : (IOErr.fromIoError (fun s => wordsOf (.fromStr s)) e).tag =
      (IOErr.fromIoError RocStr.fromStr e).tag := by
    obtain ⟨kind, message⟩ := e
    cases kind <;> rfl
  have hpayload : (IOErr.fromIoError (fun s => wordsOf (.fromStr s)) e).payload =
      (IOErr.fromIoError RocStr.fromStr e).payload.map wordsOf := by
    obtain ⟨kind, message⟩ := e
    cases kind <;> rfl
  have hdecode := RocModule.decode_fromIoError_reported he
  rw [RocModule.decode] at hdecode
  rw [read_ioErr roc h, htag, hpayload, RocModule.decodeIOErr_map, hdecode]
  rfl

/-! ### Results -/

theorem offset_tryErr (roc : RocModule) (ok : RocOk) :
    discriminantOffset [ok.reader.shape, (Roc.singleTag roc.errTag (Roc.ioErr roc)).shape] =
      (unionShape [(Host.rocSingleTagWrapper Host.ioErr).shape, ok.rust.writer.shape]).size := by
  cases roc <;> cases ok <;> rfl

theorem read_tryErr {roc : RocModule} {ok : RocOk} {wordsOf : RocStr → Words}
    {std : Except IoError ok.rust.Val} (hstd : ¬ (RocRet.tryErr roc ok).Misread std)
    (h : (RustRet.rocTry ok.rust).writer.At m a ((RustRet.rocTry ok.rust).result wordsOf std)) :
    (RocRet.tryErr roc ok).reader.read m a =
      some ((RocRet.tryErr roc ok).reported wordsOf std) := by
  cases std with
  | ok v =>
    have hnumber : tagNumber TryTag.name [.ok, .err] .ok = 1 := by decide
    refine h.read_rocUnion (offset_tryErr roc ok) (by decide) hnumber fun hpayload => ?_
    show (ok.reader.read m a).map Except.ok = _
    rw [RocOk.read_rust (Writer.at_comap.mp hpayload).inr]
    rfl
  | error e =>
    -- `Dir` misreads two kinds, which the hypothesis excludes.
    have he : roc = .dir → e.kind ∉ RocModule.dirMisread := by
      rintro rfl
      exact hstd
    have hnumber : tagNumber TryTag.name [.ok, .err] .err = 0 := by decide
    refine h.read_rocUnion (offset_tryErr roc ok) (by decide) hnumber fun hpayload => ?_
    have hsingle : (Roc.singleTag roc.errTag (Roc.ioErr roc)).read m a =
        some ((roc.reported e).map wordsOf) :=
      read_singleTag (Writer.at_comap.mp hpayload).inl (by cases roc <;> rfl)
        (read_ioErr_fromIoError he)
    show ((Roc.singleTag roc.errTag (Roc.ioErr roc)).read m a).map Except.error = _
    rw [hsingle]
    rfl

theorem execExitCodeValue_eq (fromStr : String → Words) (status : Except IoError (Option Int32)) :
    execExitCodeValue (hostedCmdExecExitCode fromStr status) =
      (verdict (status.map fun code => ⟨code, [], []⟩)).exitCode fromStr := by
  rcases status with e | _ | code
  · show Except.error (RocCmdErr.cmdErr _) = _
    rw [valueOf_fromIoError]
    rfl
  · rfl
  · rfl

theorem execOutputValue_eq (fromStr : String → Words) (output : Except IoError Output) :
    execOutputValue (commandExecOutput fromStr output) = (verdict output).output fromStr := by
  rcases output with e | ⟨_ | code, stdout, stderr⟩
  · show Except.error (RocCmdOutputErr.cmdErr _) = _
    rw [valueOf_fromIoError]
    rfl
  · rfl
  · unfold commandExecOutput
    dsimp only
    by_cases hcode : code = 0
    · subst hcode
      rfl
    · rw [if_neg hcode]
      exact (if_neg hcode).symm

/-- **The declared types find the result** that the Rust types have made, errors under their
tags. -/
theorem RocRet.read_rust {k : RocRet} {wordsOf : RocStr → Words} {std : k.rust.StdVal}
    (hstd : ¬ k.Misread std) (h : k.rust.writer.At m a (k.rust.result wordsOf std)) :
    k.reader.read m a = some (k.reported wordsOf std) := by
  cases k with
  | unit => exact Codec.unit.read_of_at h
  | str => exact words.read_of_at h
  | u128 => exact Codec.u128.read_of_at h
  | tryErr roc ok => exact read_tryErr hstd h
  | cmdExitCode => exact (read_execExitCode h).trans (congrArg some (execExitCodeValue_eq _ std))
  | cmdOutput => exact (read_execOutput h).trans (congrArg some (execOutputValue_eq _ std))

/-- **Roc finds the result**, as the host casts to the right types. -/
theorem HostedFn.read_ret {f : HostedFn} {wordsOf : RocStr → Words} {std : f.castRet.StdVal}
    (hstd : ¬ f.Misread std) (h : f.castRet.writer.At m a (f.castRet.result wordsOf std)) :
    f.declaredRet.reader.read m a = some (f.reported wordsOf std) := by
  have hread : ∀ k (hk : k = f.declaredRet.rust) (std : k.StdVal),
      ¬ f.declaredRet.Misread (cast (congrArg RustRet.StdVal hk) std) →
      k.writer.At m a (k.result wordsOf std) →
      f.declaredRet.reader.read m a =
        some (f.declaredRet.reported wordsOf (cast (congrArg RustRet.StdVal hk) std)) := by
    rintro _ rfl std hstd h
    exact RocRet.read_rust hstd h
  exact hread _ f.castRet_eq std hstd h

/-- Roc sets aside as much memory as the host fills. -/
theorem HostedFn.shape_ret (f : HostedFn) :
    f.castRet.writer.shape = f.declaredRet.reader.shape := by
  cases f <;> decide

/-! ### Calls -/

section

variable {W : Type} {body : HostBody W} {site : CallSite} {f : HostedFn}
  {args : f.declaredArgs.Val} {w : W}

namespace HostedFn

/-- What there is to a call: the function in the table is the one that is named. -/
theorem callHosted_eq_some_iff {inOrder : Bool} {m' : Mem} {r : f.declaredRet.Val} {w' : W} :
    f.callHosted inOrder body site args w = some (m', r, w') ↔
      ∃ hostArgs,
        (f.castArgs.reader inOrder).read (f.declaredArgs.writer.write site.mem site.argsPtr args)
          site.argsPtr = some hostArgs ∧
        m' = f.castRet.writer.write (f.declaredArgs.writer.write site.mem site.argsPtr args)
          site.retPtr (f.castRet.result site.wordsOf (body f hostArgs w).1) ∧
        f.declaredRet.reader.read m' site.retPtr = some r ∧ w' = (body f hostArgs w).2 := by
  simp only [callHosted, exec, getElem?_hostedFns_index, Option.bind_eq_bind, Option.bind_some]
  rw [Option.bind_eq_some_iff]
  constructor
  · rintro ⟨⟨m₁, w₁⟩, hexec, h⟩
    obtain ⟨hostArgs, hargs, heq⟩ := Option.bind_eq_some_iff.mp hexec
    obtain ⟨r', hr, heq'⟩ := Option.bind_eq_some_iff.mp h
    cases heq
    cases heq'
    exact ⟨hostArgs, hargs, rfl, hr, rfl⟩
  · rintro ⟨hostArgs, hargs, rfl, hr, rfl⟩
    refine ⟨_, Option.bind_eq_some_iff.mpr ⟨hostArgs, hargs, rfl⟩, ?_⟩
    exact Option.bind_eq_some_iff.mpr ⟨r, hr, rfl⟩

/-- Whatever order the tuples have: a call leaves alone what is outside of the places for its
arguments and its result, as large as Roc has made them. -/
theorem callHosted_frame {inOrder : Bool} {m' : Mem} {r : f.declaredRet.Val} {w' : W}
    (h : f.callHosted inOrder body site args w = some (m', r, w')) {x : ℕ}
    (hargs : x < site.argsPtr ∨ site.argsPtr + f.declaredArgs.writer.shape.size ≤ x)
    (hret : x < site.retPtr ∨ site.retPtr + f.declaredRet.reader.shape.size ≤ x) :
    m' x = site.mem x := by
  obtain ⟨hostArgs, -, rfl, -, -⟩ := callHosted_eq_some_iff.mp h
  rw [← HostedFn.shape_ret] at hret
  rw [f.castRet.writer.frame _ _ _ _ hret, f.declaredArgs.writer.frame _ _ _ _ hargs]

/-- **A call is a call of the function it names.** -/
theorem callHosted_eq (hstd : ¬ f.Misread (body f (f.toHost args) w).1) :
    ∃ m', f.callHosted true body site args w =
      some (m', f.reported site.wordsOf (body f (f.toHost args) w).1,
        (body f (f.toHost args) w).2) :=
  ⟨_, callHosted_eq_some_iff.mpr ⟨_, read_args (f.declaredArgs.writer.at_write _ _ _), rfl,
    read_ret hstd (f.castRet.writer.at_write _ _ _), rfl⟩⟩

end HostedFn

end

/-- **A program does what it says**, run through memory and the table of the host. -/
theorem Program.runHosted_eq {W ρ : Type} (body : HostBody W) (sites : ℕ → CallSite)
    (program : Program ρ) (n : ℕ) (w : W) (h : program.NoMisread body sites n w) :
    program.runHosted true body sites n w = some (program.run body sites n w) := by
  induction program generalizing n w with
  | done r => rfl
  | call f args k ih =>
    obtain ⟨hstd, hrest⟩ := h
    obtain ⟨m', hcall⟩ :
        ∃ m', f.callHosted true body (sites n) args w =
          some (m', f.reported (sites n).wordsOf (body f (f.toHost args) w).1,
            (body f (f.toHost args) w).2) := HostedFn.callHosted_eq hstd
    rw [runHosted, hcall]
    exact ih _ (n + 1) _ hrest

/-- A host with one file, which it writes and reads whatever the path; all else fails. -/
def oneFileBody : HostBody Words
  | .fileWriteBytes, (_, bytes), _ => (.ok (), bytes)
  | .fileReadBytes, _, bytes => (.ok bytes, bytes)
  | f, _, bytes =>
    (f.castRet.fail ⟨.unsupported, "operation not supported on this platform"⟩, bytes)

/-- Write a file, read it, and delete it. -/
def writeReadDelete (path bytes : Words) :
    Program (Except (RocIOErr Words) Words × Except (RocIOErr Words) Unit) :=
  .call .fileWriteBytes (path, bytes) fun _ =>
    .call .fileReadBytes path fun contents =>
      .call .fileDelete path fun deleted => .done (contents, deleted)

theorem runHosted_writeReadDelete :
    (writeReadDelete (.replicate 24 1) (.replicate 24 2)).runHosted true oneFileBody
        (fun n => ⟨fun _ => 0, 4096 + n, 4100, fun _ => .replicate 24 3⟩) 0 (.replicate 24 0) =
      some ((.ok (.replicate 24 2), .error (.simple .unsupported)), .replicate 24 2) :=
  Program.runHosted_eq _ _ _ _ _ ⟨id, id, id, trivial⟩

end BasicCli
