import BasicCli.StdIo.Error
import Mathlib.Algebra.Group.Nat.Defs
import Mathlib.Data.Int.Order.Basic

/-!
# Panics, rooms and times of `std`

What `std` does with a capacity that nothing can hold, and with times: on a Unix a `SystemTime` is
seconds and nanoseconds, counted from 1970 on, and the seconds may be negative.
-/

namespace BasicCli.StdIo

/-! ### Times -/

/-- `std::time::SystemTime`. -/
structure SystemTime where
  secs : Int64
  nanos : ℕ
  nanos_lt : nanos < 1000000000

/-- `std::time::UNIX_EPOCH`. -/
def unixEpoch : SystemTime := ⟨0, 0, by decide⟩

/-- `std::time::Duration`. -/
structure Duration where
  secs : UInt64
  nanos : ℕ
  nanos_lt : nanos < 1000000000

/-- `Duration::as_nanos`.  There is room for the largest duration. -/
def Duration.asNanos (d : Duration) : BitVec 128 :=
  .ofNat 128 (d.secs.toNat * 1000000000 + d.nanos)

namespace SystemTime

/-- The first time is not later than the second. -/
def NotAfter (time other : SystemTime) : Prop :=
  time.secs < other.secs ∨ time.secs = other.secs ∧ time.nanos ≤ other.nanos

instance (time other : SystemTime) : Decidable (time.NotAfter other) := by
  unfold NotAfter
  infer_instance

/-- The time that has passed from `other` to `time`, which is not earlier. -/
def sub (time other : SystemTime) : Duration :=
  if h : other.nanos ≤ time.nanos then
    ⟨time.secs.toUInt64 - other.secs.toUInt64, time.nanos - other.nanos,
      Nat.lt_of_le_of_lt (Nat.sub_le _ _) time.nanos_lt⟩
  else
    ⟨time.secs.toUInt64 - other.secs.toUInt64 - 1, time.nanos + 1000000000 - other.nanos, by omega⟩

/-- `SystemTime::duration_since`.  The error has the duration by which `time` is earlier. -/
def durationSince (time earlier : SystemTime) : Except Duration Duration :=
  if earlier.NotAfter time then .ok (time.sub earlier) else .error (earlier.sub time)

end SystemTime

/-! ### Panics -/

/-- What ends a program inside `std`: a capacity of more than `isize::MAX` bytes, a request that the
allocator refuses (`handle_alloc_error`, which aborts), `expect` of an error, or `unwrap` of the
error of `duration_since`. -/
inductive Panic
  | capacityOverflow
  | allocError (bytes : ℕ)
  | expect (err : IoError)
  | systemTimeError (duration : Duration)

/-- `isize::MAX`. -/
def isizeMax : ℕ := 2 ^ 63 - 1

/-- The room that `Vec::with_capacity` and `BufReader::with_capacity` ask for, where `granted` tells
the requests that the allocator grants.  It is not asked for no bytes. -/
def withCapacity (granted : ℕ → Bool) (capacity : UInt64) : Except Panic Unit :=
  if capacity.toNat ≤ isizeMax then
    if capacity = 0 ∨ granted capacity.toNat then .ok ()
    else .error (.allocError capacity.toNat)
  else .error .capacityOverflow

/-- There is room for `capacity` bytes. -/
def Room (granted : ℕ → Bool) (capacity : UInt64) : Prop :=
  capacity.toNat ≤ isizeMax ∧ (capacity = 0 ∨ granted capacity.toNat)

instance (granted : ℕ → Bool) (capacity : UInt64) : Decidable (Room granted capacity) := by
  unfold Room
  infer_instance

/-- `Result::unwrap` of what `duration_since` gives. -/
def unwrap (result : Except Duration Duration) : Except Panic Duration :=
  match result with
  | .ok duration => .ok duration
  | .error duration => .error (.systemTimeError duration)

/-! ### What they come to -/

theorem withCapacity_ok_iff {granted : ℕ → Bool} {capacity : UInt64} :
    withCapacity granted capacity = .ok () ↔ Room granted capacity := by
  rw [withCapacity]
  split_ifs with hmax hroom
  · exact iff_of_true rfl ⟨hmax, hroom⟩
  · refine iff_of_false ?_ fun h => hroom h.2
    intro h
    cases h
  · refine iff_of_false ?_ fun h => hmax h.1
    intro h
    cases h

theorem unixEpoch_notAfter_iff {time : SystemTime} : unixEpoch.NotAfter time ↔ 0 ≤ time.secs := by
  show 0 < time.secs ∨ 0 = time.secs ∧ 0 ≤ time.nanos ↔ _
  rw [Int64.le_iff_lt_or_eq]
  simp

/-- **`duration_since(UNIX_EPOCH)`** is an error for the times before 1970. -/
theorem unwrap_durationSince_iff {time : SystemTime} :
    (∃ duration, unwrap (time.durationSince unixEpoch) = .ok duration) ↔ 0 ≤ time.secs := by
  rw [← unixEpoch_notAfter_iff, SystemTime.durationSince]
  split_ifs with h
  · exact iff_of_true ⟨_, rfl⟩ h
  · refine iff_of_false ?_ h
    rintro ⟨duration, h⟩
    cases h

/-- Since 1970 the nanoseconds are counted exactly. -/
theorem toNat_asNanos_sub_unixEpoch {time : SystemTime} (h : 0 ≤ time.secs) :
    ((time.sub unixEpoch).asNanos.toNat : ℤ) = time.secs.toInt * 1000000000 + time.nanos := by
  have hnanos : unixEpoch.nanos ≤ time.nanos := Nat.zero_le _
  have hzero : time.secs.toUInt64 - unixEpoch.secs.toUInt64 = time.secs.toUInt64 :=
    UInt64.sub_zero _
  rw [SystemTime.sub, dif_pos hnanos, Duration.asNanos]
  have hsecs : (time.secs.toUInt64.toNat : ℤ) = time.secs.toInt := by
    rw [Int64.toNat_toUInt64_of_le h]
    exact Int.toNat_of_nonneg (Int64.le_iff_toInt_le.mp h)
  have hlt := time.secs.toUInt64.toNat_lt
  have hnanos_lt := time.nanos_lt
  have hsub : time.nanos - unixEpoch.nanos = time.nanos := Nat.sub_zero _
  rw [BitVec.toNat_ofNat]
  simp only [hzero, hsub]
  rw [Nat.mod_eq_of_lt (by omega), ← hsecs]
  omega

end BasicCli.StdIo
