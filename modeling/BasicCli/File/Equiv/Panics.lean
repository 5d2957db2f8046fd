import BasicCli.File.Time
import BasicCli.Tcp.Equiv.Loss

/-!
# Sizes and times that panic

`file_reader` and `tcp_read_exactly` ask for as much room as a program wants to read, and the times
of a file are unwrapped, before anything is checked.  `returns_iff` says when they answer all the
same.
-/

namespace BasicCli

open StdIo LawfulBufRead

variable {E : Type} (into : IoError → E)

/-! ### `file_reader` -/

section

variable {granted : ℕ → Bool}

/-- Where its buffer and the heap of the handles can be made, `file_reader` is `fileReader`. -/
theorem fileReaderOrPanic_eq {size : UInt64} (hroom : Room granted (readerCapacity size))
    (file : Except IoError Source) (allocFor : Except IoError Unit) :
    fileReaderOrPanic into granted file size (.ok ()) allocFor =
      .ok (fileReader into file size allocFor) := by
  have hcapacity : withCapacity granted (readerCapacity size) = .ok () :=
    withCapacity_ok_iff.mpr hroom
  cases file with
  | error err => rfl
  | ok source => rw [fileReaderOrPanic, hcapacity]

/-- **`file_reader` returns** iff there is no file to read, or there is room for its buffer and for
the heap of the handles. -/
theorem fileReaderOrPanic_iff (file : Except IoError Source) (size : UInt64)
    (heap allocFor : Except IoError Unit) :
    (∃ res, fileReaderOrPanic into granted file size heap allocFor = .ok res) ↔
      (∃ err, file = .error err) ∨ Room granted (readerCapacity size) ∧ heap = .ok () := by
  constructor
  · rintro ⟨res, h⟩
    cases file with
    | error err => exact .inl ⟨err, rfl⟩
    | ok source =>
      right
      -- The file is open: the buffer comes first, then the box on Roc's heap.
      unfold fileReaderOrPanic at h
      rcases hroom : withCapacity granted (readerCapacity size) with panic | _
      · rw [hroom] at h
        cases h
      · rw [hroom] at h
        cases heap with
        | error err => cases h
        | ok _ => exact ⟨withCapacity_ok_iff.mp hroom, rfl⟩
  · rintro (⟨err, rfl⟩ | ⟨hroom, rfl⟩)
    · exact ⟨_, rfl⟩
    · exact ⟨_, fileReaderOrPanic_eq into hroom file allocFor⟩

end

/-! ### `tcp_read_exactly` -/

/-- `tcp_read_exactly`, which makes a `Vec` with the capacity for what it is to read.  An error of
the outer `Except` ends the program. -/
def tcpReadExactlyOrPanic (granted : ℕ → Bool) (sizes : ℕ → List UInt8 → ℕ) (fuel : ℕ)
    (stream : TcpStream) (bytesToRead : UInt64) :
    Except Panic (Option (Except RocStr (List UInt8) × TcpStream)) :=
  (withCapacity granted bytesToRead).map fun _ => tcpReadExactly sizes fuel stream bytesToRead

/-- A call of `tcp_read_exactly` returns.  If the stream ends before, without a failure, it answers
`UnexpectedEof`. -/
def ReadExactlyReturns (granted : ℕ → Bool) (sizes : ℕ → List UInt8 → ℕ) (stream : TcpStream)
    (bytesToRead : UInt64) : Prop :=
  ∃ N, ∀ fuel ≥ N, ∃ res stream',
    tcpReadExactlyOrPanic granted sizes fuel stream bytesToRead = .ok (some (res, stream')) ∧
    (OnlyInterrupted stream.errs → stream.rest.length < bytesToRead.toNat →
      res = .error (.fromStr unexpectedEofError))

/-- **`tcp_read_exactly` returns** iff there is room for what it is to read. -/
theorem readExactlyReturns_iff (granted : ℕ → Bool) (sizes : ℕ → List UInt8 → ℕ)
    (stream : TcpStream) (bytesToRead : UInt64) :
    ReadExactlyReturns granted sizes stream bytesToRead ↔ Room granted bytesToRead := by
  rw [← withCapacity_ok_iff]
  constructor
  · rintro ⟨N, h⟩
    obtain ⟨res, stream', h, -⟩ := h N (Nat.le_refl N)
    rcases hroom : withCapacity granted bytesToRead with panic | _
    · rw [tcpReadExactlyOrPanic, hroom] at h
      cases h
    · rfl
  · -- With room for the buffer the call is the one that cannot panic.
    intro hroom
    refine ⟨stepsLeft stream.reader + 1, fun fuel hfuel => ?_⟩
    have hfuel : stepsLeft stream.reader < fuel := Nat.lt_of_succ_le hfuel
    obtain ⟨res, stream', hrun, -⟩ := tcpReadExactly_delivers sizes hfuel bytesToRead
    refine ⟨res, stream', ?_, fun hcalm hshort => ?_⟩
    · rw [tcpReadExactlyOrPanic, hroom]
      exact congrArg Except.ok hrun
    · obtain ⟨res', stream'', hrun', hmeets, -⟩ :=
        tcpReadExactly_spec hcalm sizes hfuel bytesToRead
      rw [hrun] at hrun'
      obtain ⟨rfl, -⟩ := Prod.mk.inj (Option.some.inj hrun')
      exact hmeets.1.mpr hshort

/-! ### The times of a file -/

variable {time : Metadata → Except IoError SystemTime}

/-- A time from 1970 on is answered in nanoseconds. -/
theorem fileTime_ok {metadata : Metadata} {t : SystemTime} (ht : time metadata = .ok t)
    (hsecs : 0 ≤ t.secs) :
    ∃ nanos, fileTime into time (.ok metadata) = .ok (.ok nanos) ∧
      (nanos.toNat : ℤ) = t.secs.toInt * 1000000000 + t.nanos := by
  have hafter : unixEpoch.NotAfter t := unixEpoch_notAfter_iff.mpr hsecs
  refine ⟨(t.sub unixEpoch).asNanos, ?_, toNat_asNanos_sub_unixEpoch hsecs⟩
  rw [fileTime, ht]
  dsimp only
  rw [SystemTime.durationSince, if_pos hafter]
  rfl

/-- **A time of a file is answered** iff there is none or it is not before 1970. -/
theorem fileTime_iff (metadataRes : Except IoError Metadata) :
    (∃ res, fileTime into time metadataRes = .ok res) ↔
      ∀ metadata t, metadataRes = .ok metadata → time metadata = .ok t → 0 ≤ t.secs := by
  constructor
  · rintro ⟨res, h⟩ metadata t rfl ht
    rw [← unwrap_durationSince_iff]
    rw [fileTime, ht] at h
    dsimp only at h
    rcases hduration : unwrap (t.durationSince unixEpoch) with panic | duration
    · rw [hduration] at h
      cases h
    · exact ⟨duration, rfl⟩
  · -- A time that is not available is an error, never a panic.
    intro h
    rcases metadataRes with err | metadata
    · exact ⟨_, rfl⟩
    · rcases ht : time metadata with err | t
      · refine ⟨.error (into err), ?_⟩
        rw [fileTime, ht]
      · obtain ⟨nanos, hnanos, -⟩ := fileTime_ok into ht (h metadata t rfl ht)
        exact ⟨_, hnanos⟩

/-! ### All of them -/

/-- **Sizes and times that panic**: sizes that there is no room for, unless there is no file, and
times before 1970. -/
theorem returns_iff (into : IoError → E) (granted : ℕ → Bool) (sizes : ℕ → List UInt8 → ℕ) :
    (∀ file size heap allocFor,
      (∃ res, fileReaderOrPanic into granted file size heap allocFor = .ok res) ↔
        (∃ err, file = .error err) ∨ Room granted (readerCapacity size) ∧ heap = .ok ()) ∧
    (∀ stream bytesToRead,
      ReadExactlyReturns granted sizes stream bytesToRead ↔ Room granted bytesToRead) ∧
    (∀ metadataRes, (∃ res, fileTimeAccessed into metadataRes = .ok res) ↔
      ∀ metadata t, metadataRes = .ok metadata → metadata.accessed = .ok t → 0 ≤ t.secs) ∧
    (∀ metadataRes, (∃ res, fileTimeModified into metadataRes = .ok res) ↔
      ∀ metadata t, metadataRes = .ok metadata → metadata.modified = .ok t → 0 ≤ t.secs) ∧
    ∀ metadataRes, (∃ res, fileTimeCreated into metadataRes = .ok res) ↔
      ∀ metadata t, metadataRes = .ok metadata → metadata.created = .ok t → 0 ≤ t.secs :=
  ⟨fileReaderOrPanic_iff into, readExactlyReturns_iff granted sizes, fileTime_iff into,
    fileTime_iff into, fileTime_iff into⟩

/-- A buffer of `2^63` bytes, a read of as many, and a file of the end of 1969, where the allocator
grants whatever it is asked for. -/
theorem not_returns :
    (¬ ∃ res, fileReaderOrPanic id (fun _ => true) (.ok []) 0x8000000000000000 (.ok ()) (.ok ()) =
      .ok res) ∧
    ¬ ReadExactlyReturns (fun _ => true) (fun _ _ => 31) ⟨.new [], [], []⟩ 0x8000000000000000 ∧
    ¬ ∃ res, fileTimeModified id
      (.ok ⟨.ok ⟨0, 0, by decide⟩, .ok ⟨-1, 0, by decide⟩, .ok ⟨0, 0, by decide⟩⟩) = .ok res := by
  refine ⟨?_, ?_, ?_⟩
  · rintro ⟨res, h⟩
    cases h
  · rintro ⟨N, h⟩
    obtain ⟨res, stream', h, -⟩ := h N (Nat.le_refl N)
    cases h
  · rintro ⟨res, h⟩
    cases h

end BasicCli
