import BasicCli.Env.Basic
import BasicCli.Hosted.Equiv.Lossy
import BasicCli.Http.Basic
import BasicCli.Sqlite.Basic
import BasicCli.Tcp.Error

/-!
# Is every `RocStr` UTF-8?

`HostText` lists the places where the host makes a `RocStr`, with whatever the outside world gives
it there, and `HostText.rocStrs` the strings that Roc gets.  They are all UTF-8 unless the place is
the text column of a SQLite row, which is handed over unread (`rocStrs_valid_iff`).
-/

namespace BasicCli

open Utf8

/-! ### The strings in a result -/

/-- The string in an `IOErr`. -/
def IOErr.rocStrs (e : IOErr RocStr) : List RocStr := e.payload.toList

/-- The strings in a result of `exec_output!`. -/
def cmdOutputRocStrs : Except (CmdOutputErr RocStr) (CmdOutputSuccess RocStr) → List RocStr
  | .ok output => [output.stderrUtf8Lossy, output.stdoutUtf8]
  | .error (.nonZeroExit payload) => [payload.stderrUtf8Lossy, payload.stdoutUtf8Lossy]
  | .error (.cmdErr ioErr) => ioErr.rocStrs

/-- The strings in a list of headers. -/
def Header.rocStrs (headers : List Header) : List RocStr :=
  headers.flatMap fun header => [header.name, header.value]

/-- The string in a SQLite value. -/
def SqliteValue.rocStrs : SqliteValue → List RocStr
  | .string val => [val]
  | _ => []

/-! ### The places -/

/-- A place where the host makes a `RocStr`, with what the outside world answers there. -/
inductive HostText
  /-- A hosted function of `Cmd`, `Dir`, `File`, `Path` or `Random` that fails with `e`. -/
  | ioErr (e : IoError)
  | cmdExecExitCode (status : Except IoError (Option Int32))
  | cmdExecOutput (output : Except IoError Output)
  | dirList {t : TargetFamily} (readDir : Except IoError (List (Except IoError (OsStr t))))
  | envCwd {t : TargetFamily} (currentDir : Except IoError (OsStr t))
  | envExePath {t : TargetFamily} (currentExe : Except IoError (OsStr t))
  | envVar {t : TargetFamily} (var : Option (OsStr t))
  | fileReadUtf8 (content : Except IoError (List UInt8))
  | stdinLine (line : List UInt8)
  | args (argc : Int32) (argv : Option (List (Option (List UInt8))))
  | crateEnvDict {t : TargetFamily} (vars : List (OsStr t × OsStr t))
  | crateEnvVar {t : TargetFamily} (value : Option (OsStr t))
  | crateLocale (locale : Option String)
  | crateLocales (locales : List String)
  | crateArchOs (arch os : String)
  | crateStdinLine (into : IoError → String) (next : Option (Except IoError String))
  /-- An `IOErr` of `roc_file`, whose message is a literal or what its own conversion from
  `std::io::Error` makes. -/
  | crateIoErr (msg : String)
  | tcpUnexpectedEof
  | tcpConnectErr (err : IoError)
  | tcpStreamErr (err : IoError)
  | httpRequest (hyperReq : HyperRequest)
  | httpResponse (sent : Sent)
  | sqliteColumns (names : List (List UInt8))
  | sqliteColumnValue (count : UInt64) (column : Int32 → SqliteColumn) (i : UInt64)
  | sqliteConnErr (code : Int32) (errstr : List UInt8) (errmsg : Option (List UInt8))
  | sqliteErr (code : Int32) (errstr : List UInt8) (conn : Bool) (errmsg : Option (List UInt8))
  | sqliteNomem
  | sqliteUnknownParameter (nameDebug : String)

namespace HostText

/-- The strings that Roc gets from a place. -/
def rocStrs : HostText → List RocStr
  | ioErr e => (IOErr.fromIoError .fromStr e).rocStrs
  | cmdExecExitCode status =>
    match hostedCmdExecExitCode .fromStr status with
    | .ok _ => []
    | .error e => e.rocStrs
  | cmdExecOutput output => cmdOutputRocStrs (hostedCmdExecOutput .fromStr output)
  | dirList readDir =>
    match hostedDirList readDir with
    | .ok list => list
    | .error e => e.rocStrs
  | envCwd currentDir => [hostedEnvCwd currentDir]
  | envExePath currentExe => [hostedEnvExePath currentExe]
  | envVar var => [hostedEnvVar var]
  | fileReadUtf8 content =>
    match hostedFileReadUtf8 content with
    | .ok s => [s]
    | .error e => e.rocStrs
  | stdinLine line => [hostedStdinLine line]
  | args argc argv => buildArgsList argc argv
  | crateEnvDict vars => (BasicCli.envDict vars).flatMap fun (key, val) => [key, val]
  | crateEnvVar value => (BasicCli.envVar value).toOption.toList
  | crateLocale locale => (getLocale locale).toOption.toList
  | crateLocales locales => getLocales locales
  | crateArchOs arch os => [(currentArchOs arch os).arch, (currentArchOs arch os).os]
  | crateStdinLine into next =>
    match BasicCli.stdinLine into next with
    | .ok s => [s]
    | .error msg => [msg]
  | crateIoErr msg => [.fromStr msg]
  | tcpUnexpectedEof => [.fromStr unexpectedEofError]
  | tcpConnectErr err => [toTcpConnectErr err]
  | tcpStreamErr err => [toTcpStreamErr err]
  | httpRequest hyperReq =>
    match RequestToAndFromHost.ofHyperRequest hyperReq with
    | some req => Header.rocStrs req.headers ++ [req.methodExt, req.uri]
    | none => []
  | httpResponse sent => Header.rocStrs (asyncSendRequest sent).headers
  | sqliteColumns names => columns names
  | sqliteColumnValue count column i =>
    match columnValue count column i with
    | .ok value => value.rocStrs
    | .error e => [e.message]
  | sqliteConnErr code errstr errmsg => [(errFromSqliteConn code errstr errmsg).message]
  | sqliteErr code errstr conn errmsg => [(rocErrFromSqliteErrcode code errstr conn errmsg).message]
  | sqliteNomem => [prepareNomem.message]
  | sqliteUnknownParameter nameDebug => [(bindUnknownParameter nameDebug).message]

/-- The place reads a text column of a SQLite row, and the bytes there are not UTF-8. -/
def InvalidColumn : HostText → Prop
  | sqliteColumnValue count column i =>
    i < count ∧ ∃ bytes, column i.toUInt32.toInt32 = .text bytes ∧ ¬ Valid bytes
  | _ => False

end HostText

/-! ### Strings made from Rust strings -/

theorem RocStr.valid_fromStr (s : String) : Valid (RocStr.fromStr s).bytes := valid_encode s.toList

theorem RocStr.valid_empty : Valid RocStr.empty.bytes := valid_encode []

theorem RocStr.valid_singleton {a : RocStr} (ha : Valid a.bytes) : ∀ s ∈ [a], Valid s.bytes :=
  List.forall_mem_singleton.mpr ha

theorem RocStr.valid_pair {a b : RocStr} (ha : Valid a.bytes) (hb : Valid b.bytes) :
    ∀ s ∈ [a, b], Valid s.bytes :=
  List.forall_mem_cons.mpr ⟨ha, valid_singleton hb⟩

theorem IOErr.rocStrs_newOther (msg : String) :
    (IOErr.newOther RocStr.fromStr msg).rocStrs = [.fromStr msg] := rfl

/-- **The texts of an error** are those of Rust. -/
theorem IOErr.valid_fromIoError (e : IoError) :
    ∀ s ∈ (IOErr.fromIoError RocStr.fromStr e).rocStrs, Valid s.bytes := by
  intro s hs
  have hmsg : s = .fromStr e.message := by
    unfold fromIoError at hs
    split at hs
    case h_8 => exact List.mem_singleton.mp hs
    all_goals cases hs
  rw [hmsg]
  exact RocStr.valid_fromStr _

theorem valid_toTcpConnectErr (err : IoError) : Valid (toTcpConnectErr err).bytes := by
  unfold toTcpConnectErr
  split <;> exact RocStr.valid_fromStr _

theorem valid_toTcpStreamErr (err : IoError) : Valid (toTcpStreamErr err).bytes := by
  unfold toTcpStreamErr
  split <;> exact RocStr.valid_fromStr _

theorem valid_hostedCmdExecExitCode {status : Except IoError (Option Int32)} {e : IOErr RocStr}
    (h : hostedCmdExecExitCode RocStr.fromStr status = .error e) :
    ∀ s ∈ e.rocStrs, Valid s.bytes := by
  unfold hostedCmdExecExitCode commandExecExitCode at h
  split at h
  · cases h
  · cases h
    rw [IOErr.rocStrs_newOther]
    exact RocStr.valid_singleton (RocStr.valid_fromStr _)
  · cases h
    exact IOErr.valid_fromIoError _

/-- The output of a command is decoded lossily, so that it is valid whatever it was. -/
theorem valid_hostedCmdExecOutput (output : Except IoError Output) :
    ∀ s ∈ cmdOutputRocStrs (hostedCmdExecOutput RocStr.fromStr output), Valid s.bytes := by
  cases output with
  | error e => exact IOErr.valid_fromIoError e
  | ok output =>
    obtain ⟨code, stdout, stderr⟩ := output
    cases code with
    | none => exact RocStr.valid_singleton (RocStr.valid_fromStr _)
    | some code =>
      rw [hostedCmdExecOutput_of_exited]
      split_ifs <;> exact RocStr.valid_pair (RocStr.valid_fromStr _) (RocStr.valid_fromStr _)

/-- The names of a directory are decoded lossily. -/
theorem valid_hostedDirList {t : TargetFamily}
    {readDir : Except IoError (List (Except IoError (OsStr t)))} :
    (∀ list, hostedDirList readDir = .ok list → ∀ s ∈ list, Valid s.bytes) ∧
    (∀ e, hostedDirList readDir = .error e → ∀ s ∈ e.rocStrs, Valid s.bytes) := by
  cases readDir with
  | error e =>
    refine ⟨fun list h => (nomatch h), ?_⟩
    intro e' h
    cases h
    exact IOErr.valid_fromIoError e
  | ok rd =>
    refine ⟨?_, fun e h => (nomatch h)⟩
    intro list h
    cases h
    intro s hs
    obtain ⟨entry, -, rfl⟩ := List.mem_map.mp hs
    exact RocStr.valid_fromStr _

theorem valid_hostedFileReadUtf8 {content : Except IoError (List UInt8)} :
    (∀ s, hostedFileReadUtf8 content = .ok s → Valid s.bytes) ∧
    (∀ e, hostedFileReadUtf8 content = .error e → ∀ s ∈ e.rocStrs, Valid s.bytes) := by
  unfold hostedFileReadUtf8
  cases readToString content with
  | ok str =>
    refine ⟨?_, fun e h => (nomatch h)⟩
    intro s h
    cases h
    exact RocStr.valid_fromStr _
  | error e =>
    refine ⟨fun s h => (nomatch h), ?_⟩
    intro e' h
    cases h
    exact IOErr.valid_fromIoError e

/-- The arguments are decoded lossily. -/
theorem valid_buildArgsList (argc : Int32) (argv : Option (List (Option (List UInt8)))) :
    ∀ s ∈ buildArgsList argc argv, Valid s.bytes := by
  intro s hs
  cases argv with
  | none => cases hs
  | some argv =>
    unfold buildArgsList at hs
    simp only at hs
    split_ifs at hs with h
    · cases hs
    · obtain ⟨arg, -, rfl⟩ := List.mem_map.mp hs
      exact RocStr.valid_fromStr _

/-- What a partial map makes of every element of a list has the property that it makes of each. -/
theorem forall_of_mapM {α β : Type} {f : α → Option β} {p : β → Prop}
    (hf : ∀ a b, f a = some b → p b) :
    ∀ {l : List α} {l' : List β}, l.mapM f = some l' → ∀ b ∈ l', p b := by
  intro l
  induction l with
  | nil =>
    intro l' h
    cases h
    exact fun b hb => nomatch hb
  | cons a l ih =>
    intro l' h
    rw [List.mapM_cons] at h
    obtain ⟨b, hb, h⟩ := Option.bind_eq_some_iff.mp h
    obtain ⟨bs, hbs, h⟩ := Option.bind_eq_some_iff.mp h
    cases h
    exact List.forall_mem_cons.mpr ⟨hf a b hb, ih hbs⟩

/-- A request of `hyper` has texts only. -/
theorem valid_ofHyperRequest {hyperReq : HyperRequest} {req : RequestToAndFromHost}
    (h : RequestToAndFromHost.ofHyperRequest hyperReq = some req) :
    ∀ s ∈ Header.rocStrs req.headers ++ [req.methodExt, req.uri], Valid s.bytes := by
  obtain ⟨headers, hh, h⟩ := Option.bind_eq_some_iff.mp h
  cases h
  have hvalid : ∀ header ∈ headers, Valid header.name.bytes ∧ Valid header.value.bytes := by
    refine forall_of_mapM ?_ hh
    intro kv header hkv
    obtain ⟨value, -, hkv⟩ := Option.bind_eq_some_iff.mp hkv
    cases hkv
    exact ⟨RocStr.valid_fromStr _, RocStr.valid_fromStr _⟩
  intro s hs
  rcases List.mem_append.mp hs with hs | hs
  · obtain ⟨header, hmem, hs⟩ := List.mem_flatMap.mp hs
    exact RocStr.valid_pair (hvalid header hmem).1 (hvalid header hmem).2 s hs
  · refine RocStr.valid_pair ?_ (RocStr.valid_fromStr _) s hs
    dsimp only
    split_ifs
    · exact RocStr.valid_fromStr _
    · exact RocStr.valid_empty

theorem valid_asyncSendRequest (sent : Sent) :
    ∀ s ∈ Header.rocStrs (asyncSendRequest sent).headers, Valid s.bytes := by
  intro s hs
  cases sent with
  | noConnector => cases hs
  | failed err => cases hs
  | response response =>
    obtain ⟨status, headers, body⟩ := response
    cases body with
    | none => cases hs
    | some body =>
      obtain ⟨header, hmem, hs⟩ := List.mem_flatMap.mp hs
      obtain ⟨kv, -, rfl⟩ := List.mem_map.mp hmem
      exact RocStr.valid_pair (RocStr.valid_fromStr _) (RocStr.valid_fromStr _) s hs

/-- **A column is not looked at**: its text is valid iff SQLite gives valid bytes. -/
theorem valid_columnValue_iff (count : UInt64) (column : Int32 → SqliteColumn) (i : UInt64) :
    (∀ s ∈ (HostText.sqliteColumnValue count column i).rocStrs, Valid s.bytes) ↔
      ¬ (HostText.sqliteColumnValue count column i).InvalidColumn := by
  unfold HostText.rocStrs HostText.InvalidColumn columnValue
  simp only
  by_cases hi : i ≥ count
  · rw [if_pos hi]
    apply iff_of_true (RocStr.valid_singleton (RocStr.valid_fromStr _))
    intro h
    exact UInt64.not_le.mpr h.1 hi
  · rw [if_neg hi]
    -- Text is the one column that becomes a string, and it does so unchecked.
    cases hc : column i.toUInt32.toInt32 with
    | text bytes =>
      refine ⟨fun h => ?_, fun h => RocStr.valid_singleton ?_⟩
      · rintro ⟨-, b, hb, hn⟩
        cases hb
        exact hn (h ⟨bytes⟩ (List.mem_singleton.mpr rfl))
      · by_contra hn
        exact h ⟨UInt64.not_le.mp hi, bytes, rfl, hn⟩
    | _ => exact iff_of_true (fun s hs => nomatch hs) (fun ⟨_, b, hb, _⟩ => nomatch hb)

/-! ### Every place -/

/-- Every other place makes valid texts: one case for each. -/
theorem HostText.valid_rocStrs {place : HostText}
    (h : ∀ count column i, place ≠ .sqliteColumnValue count column i) :
    ∀ s ∈ place.rocStrs, Valid s.bytes := by
  intro s hs
  cases place with
  | ioErr e => exact IOErr.valid_fromIoError e s hs
  | cmdExecExitCode status =>
    unfold rocStrs at hs
    simp only at hs
    split at hs
    · cases hs
    case h_2 e he => exact valid_hostedCmdExecExitCode he s hs
  | cmdExecOutput output => exact valid_hostedCmdExecOutput output s hs
  | dirList readDir =>
    unfold rocStrs at hs
    simp only at hs
    split at hs
    case h_1 list hl => exact valid_hostedDirList.1 list hl s hs
    case h_2 e he => exact valid_hostedDirList.2 e he s hs
  | fileReadUtf8 content =>
    unfold rocStrs at hs
    simp only at hs
    split at hs
    case h_1 str hstr => exact RocStr.valid_singleton (valid_hostedFileReadUtf8.1 str hstr) s hs
    case h_2 e he => exact valid_hostedFileReadUtf8.2 e he s hs
  | args argc argv => exact valid_buildArgsList argc argv s hs
  | crateEnvDict vars =>
    obtain ⟨kv, hmem, hs⟩ := List.mem_flatMap.mp hs
    obtain ⟨kv', -, rfl⟩ := List.mem_map.mp hmem
    exact RocStr.valid_pair (RocStr.valid_fromStr _) (RocStr.valid_fromStr _) s hs
  | crateEnvVar value =>
    cases value with
    | none => cases hs
    | some osStr => exact RocStr.valid_singleton (RocStr.valid_fromStr _) s hs
  | crateLocale locale =>
    cases locale with
    | none => cases hs
    | some locale => exact RocStr.valid_singleton (RocStr.valid_fromStr _) s hs
  | crateLocales locales =>
    obtain ⟨l, -, rfl⟩ := List.mem_map.mp hs
    exact RocStr.valid_fromStr _
  | crateArchOs arch os =>
    exact RocStr.valid_pair (RocStr.valid_fromStr _) (RocStr.valid_fromStr _) s hs
  | crateStdinLine into next =>
    cases next with
    | none => exact RocStr.valid_singleton RocStr.valid_empty s hs
    | some r => cases r <;> exact RocStr.valid_singleton (RocStr.valid_fromStr _) s hs
  | tcpConnectErr err => exact RocStr.valid_singleton (valid_toTcpConnectErr err) s hs
  | tcpStreamErr err => exact RocStr.valid_singleton (valid_toTcpStreamErr err) s hs
  | httpRequest hyperReq =>
    unfold rocStrs at hs
    simp only at hs
    split at hs
    case h_1 req hreq => exact valid_ofHyperRequest hreq s hs
    · cases hs
  | httpResponse sent => exact valid_asyncSendRequest sent s hs
  | sqliteColumns names =>
    obtain ⟨name, -, rfl⟩ := List.mem_map.mp hs
    exact RocStr.valid_fromStr _
  | sqliteColumnValue count column i => exact absurd rfl (h count column i)
  -- The other places make a single string, and make it of a Rust string.
  | _ => exact RocStr.valid_singleton (RocStr.valid_fromStr _) s hs

/-- **Every `RocStr` is UTF-8**, unless it comes from a text column of a SQLite row that is not. -/
theorem HostText.rocStrs_valid_iff (place : HostText) :
    (∀ s ∈ place.rocStrs, Valid s.bytes) ↔ ¬ place.InvalidColumn := by
  cases place with
  | sqliteColumnValue count column i => exact valid_columnValue_iff count column i
  | _ => exact iff_of_true (valid_rocStrs fun _ _ _ => nofun) id

/-- `SELECT CAST(x'FF' AS TEXT)`. -/
theorem HostText.not_rocStrs_valid_ff :
    ¬ ∀ (place : HostText), ∀ s ∈ place.rocStrs, Valid s.bytes := by
  intro h
  have hcol := h (.sqliteColumnValue 1 (fun _ => .text [0xFF]) 0) ⟨[0xFF]⟩
    (List.mem_singleton.mpr rfl)
  exact (none_mem_decode_iff [0xFF]).mp (by decide) hcol

end BasicCli
