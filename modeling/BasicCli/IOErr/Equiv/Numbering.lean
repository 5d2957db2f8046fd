import BasicCli.IOErr.Basic

/-!
# The tag numbers of `IOErr`

`from_io_error` writes the numbers of `IOErrTag`.  `Cmd`, `File`, `Path` and `Random` declare the
same eight tags, so their alphabetical numbering is the host's and every error arrives under its
own tag (`decode_fromIoError_of_ne_dir`).  `Dir` declares six tags, two of which the host does not
have: its numbering agrees with the host's at `AlreadyExists`, `NotFound` and `Other` only, and
`decode_fromIoError_iff` says which errors come through.
-/

namespace BasicCli

open Layout

namespace RocModule

/-! ### The numberings -/

/-- The tag of a union that an `IOErrTag` is meant for. -/
def tagOf : IOErrTag → RocTag
  | .alreadyExists => .alreadyExists
  | .brokenPipe => .brokenPipe
  | .interrupted => .interrupted
  | .notFound => .notFound
  | .other => .other
  | .outOfMemory => .outOfMemory
  | .permissionDenied => .permissionDenied
  | .unsupported => .unsupported

/-- Outside `Dir` the discriminants of `IOErrTag` are the alphabetical numbers. -/
theorem tagAt?_discriminant {m : RocModule} (hm : m ≠ .dir) (t : IOErrTag) :
    tagAt? RocTag.name m.ioErr t.discriminant.toNat = some (tagOf t) := by
  cases m
  case dir => exact absurd rfl hm
  all_goals cases t <;> decide

/-- `Dir`'s reading of the discriminants of `IOErrTag`. -/
theorem tagAt?_dir (t : IOErrTag) :
    tagAt? RocTag.name dir.ioErr t.discriminant.toNat =
      match t with
      | .alreadyExists => some .alreadyExists
      | .brokenPipe => some .notADirectory
      | .interrupted => some .notEmpty
      | .notFound => some .notFound
      | .other => some .other
      | .outOfMemory => some .permissionDenied
      | .permissionDenied | .unsupported => none := by
  cases t <;> decide

/-- `Other` has the number `4` in every union. -/
theorem tagAt?_eq_other_iff (m : RocModule) (t : IOErrTag) :
    tagAt? RocTag.name m.ioErr t.discriminant.toNat = some .other ↔ t = .other := by
  cases m <;> cases t <;> decide

theorem mem_ioErr_of_ne_dir {m : RocModule} (hm : m ≠ .dir) (t : RocTag) :
    t ∈ m.ioErr ↔ t ≠ .notADirectory ∧ t ≠ .notEmpty := by
  cases m
  case dir => exact absurd rfl hm
  all_goals cases t <;> decide

/-! ### Errors outside `Dir` -/

/-- The value of a union that an `IOErr` is meant for. -/
def valueOf {σ : Type} (err : IOErr σ) : RocIOErr σ :=
  match err.payload with
  | some msg => .other msg
  | none => .simple (tagOf err.tag)

theorem decodeIOErr_of_ne_dir {σ : Type} {m : RocModule} (hm : m ≠ .dir) (err : IOErr σ) :
    m.decodeIOErr err.tag.discriminant err.payload = some (valueOf err) := by
  obtain ⟨payload, tag, hpayload⟩ := err
  unfold decodeIOErr valueOf
  rw [tagAt?_discriminant hm]
  cases payload with
  | none => cases tag <;> first | rfl | exact absurd (hpayload.mpr rfl) Bool.false_ne_true
  | some msg =>
    obtain rfl := hpayload.mp rfl
    rfl

/-- What module `m` reads when the host hands it `err`. -/
def decode (m : RocModule) (err : IOErr RocStr) : Option (RocIOErr RocStr) :=
  m.decodeIOErr err.tag.discriminant err.payload

theorem decode_newSimple {m : RocModule} (hm : m ≠ .dir) (t : IOErrTag) (ht : t ≠ .other) :
    m.decode (.newSimple t ht) = some (.simple (tagOf t)) :=
  decodeIOErr_of_ne_dir hm (.newSimple t ht)

theorem decode_newOther (m : RocModule) (msg : String) :
    m.decode (.newOther .fromStr msg) = some (.other (.fromStr msg)) := by
  unfold decode decodeIOErr IOErr.newOther
  rw [(m.tagAt?_eq_other_iff .other).mpr rfl]
  rfl

/-- Outside `Dir` every error is reported as it should be. -/
theorem decode_fromIoError_of_ne_dir {m : RocModule} (hm : m ≠ .dir) (e : IoError) :
    m.decode (.fromIoError .fromStr e) = some (m.reported e) := by
  have hmem := mem_ioErr_of_ne_dir hm
  obtain ⟨kind, msg⟩ := e
  cases kind
  case notFound | permissionDenied | alreadyExists | brokenPipe | interrupted | unsupported
      | outOfMemory =>
    simp only [reported, ErrorKind.rocTag?, hmem]
    exact decode_newSimple hm _ (by decide)
  all_goals
    simp only [reported, ErrorKind.rocTag?, hmem]
    exact decode_newOther m msg

/-! ### Errors in `Dir` -/

/-- The error kinds whose number means something else in `Dir`, or that `Dir` has a tag for which
the host never writes. -/
def dirMisread : List ErrorKind :=
  [.permissionDenied, .brokenPipe, .interrupted, .unsupported, .outOfMemory, .notADirectory,
    .directoryNotEmpty]

theorem decode_newSimple_dir (t : IOErrTag) (ht : t ≠ .other) :
    dir.decode (.newSimple t ht) =
      match t with
      | .alreadyExists => some (.simple .alreadyExists)
      | .brokenPipe => some (.simple .notADirectory)
      | .interrupted => some (.simple .notEmpty)
      | .notFound => some (.simple .notFound)
      | .outOfMemory => some (.simple .permissionDenied)
      | .other | .permissionDenied | .unsupported => none := by
  unfold decode decodeIOErr IOErr.newSimple
  rw [tagAt?_dir]
  cases t <;> rfl

theorem decode_fromIoError_dir (e : IoError) :
    dir.decode (.fromIoError .fromStr e) =
      match e.kind with
      | .notFound => some (.simple .notFound)
      | .alreadyExists => some (.simple .alreadyExists)
      | .brokenPipe => some (.simple .notADirectory)
      | .interrupted => some (.simple .notEmpty)
      | .outOfMemory => some (.simple .permissionDenied)
      | .permissionDenied | .unsupported => none
      | _ => some (.other (.fromStr e.message)) := by
  obtain ⟨kind, msg⟩ := e
  cases kind
  case notFound | permissionDenied | alreadyExists | brokenPipe | interrupted | unsupported
      | outOfMemory => exact decode_newSimple_dir _ (by decide)
  all_goals exact decode_newOther dir msg

theorem reported_dir (e : IoError) :
    dir.reported e =
      match e.kind with
      | .notFound => .simple .notFound
      | .alreadyExists => .simple .alreadyExists
      | .permissionDenied => .simple .permissionDenied
      | .notADirectory => .simple .notADirectory
      | .directoryNotEmpty => .simple .notEmpty
      | _ => .other (.fromStr e.message) := by
  obtain ⟨kind, msg⟩ := e
  cases kind <;> simp [reported, ErrorKind.rocTag?, ioErr]

/-! ### The two together -/

/-- **Which errors reach Roc under their own tag**: all of them outside `Dir`, and in `Dir` those
whose kind is not in `dirMisread`. -/
theorem decode_fromIoError_iff (m : RocModule) (e : IoError) :
    m.decode (.fromIoError .fromStr e) = some (m.reported e) ↔
      (m = .dir → e.kind ∉ dirMisread) := by
  by_cases hm : m = .dir
  · subst hm
    rw [decode_fromIoError_dir, reported_dir]
    obtain ⟨kind, msg⟩ := e
    cases kind <;> simp [dirMisread]
  · simp [hm, decode_fromIoError_of_ne_dir hm e]

/-- A directory operation without the privileges for it reports a tag that `Dir.IOErr` does not
have. -/
theorem not_decode_permissionDenied :
    ¬ ∀ (m : RocModule) (e : IoError),
      m.decode (.fromIoError .fromStr e) = some (m.reported e) := by
  intro h
  have := h .dir ⟨.permissionDenied, "Permission denied (os error 13)"⟩
  rw [decode_fromIoError_dir] at this
  exact absurd this (by simp)

end RocModule

end BasicCli
