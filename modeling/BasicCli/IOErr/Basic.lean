import BasicCli.Layout.Alphabetical
import BasicCli.RocStr.Basic
import BasicCli.StdIo.Error

/-!
# `IOErr`

`crates/roc_io_error` turns a `std::io::Error` into the tag union that Roc's modules declare as
`IOErr`.  The host has one hand-numbered enum, `IOErrTag`; on the other side each of `Cmd`, `Dir`,
`File`, `Path` and `Random` declares a union of its own, and Roc numbers the tags of a union
alphabetically from `0`.
-/

namespace BasicCli

open Layout

/-! ### The host's side -/

/-- `IOErrTag`, the discriminants of `IOErr`. -/
inductive IOErrTag
  | alreadyExists | brokenPipe | interrupted | notFound | other | outOfMemory | permissionDenied
  | unsupported
deriving DecidableEq, Repr

/-- The `#[repr(u8)]` value of a tag. -/
def IOErrTag.discriminant : IOErrTag → UInt8
  | alreadyExists => 0
  | brokenPipe => 1
  | interrupted => 2
  | notFound => 3
  | other => 4
  | outOfMemory => 5
  | permissionDenied => 6
  | unsupported => 7

/-- `IOErr`, with `σ` for the type of `RocStr`s.  The payload area is initialised for `Other` only;
`none` is the zeroed payload of the other tags. -/
structure IOErr (σ : Type) where
  payload : Option σ
  tag : IOErrTag
  payload_isSome : payload.isSome ↔ tag = .other

namespace IOErr

variable {σ : Type}

/-- `IOErr::new_simple`; the side condition is its `debug_assert!`. -/
def newSimple (tag : IOErrTag) (h : tag ≠ .other := by decide) : IOErr σ :=
  ⟨none, tag, by simp [h]⟩

/-- `IOErr::new_other`. -/
def newOther (fromStr : String → σ) (msg : String) : IOErr σ :=
  ⟨some (fromStr msg), .other, by simp⟩

/-- `IOErr::not_found`. -/
def notFound : IOErr σ := newSimple .notFound

/-- `IOErr::permission_denied`. -/
def permissionDenied : IOErr σ := newSimple .permissionDenied

/-- `IOErr::already_exists`. -/
def alreadyExists : IOErr σ := newSimple .alreadyExists

/-- `IOErr::from_io_error`. -/
def fromIoError (fromStr : String → σ) (e : IoError) : IOErr σ :=
  match e.kind with
  | .notFound => notFound
  | .permissionDenied => permissionDenied
  | .alreadyExists => alreadyExists
  | .brokenPipe => newSimple .brokenPipe
  | .interrupted => newSimple .interrupted
  | .unsupported => newSimple .unsupported
  | .outOfMemory => newSimple .outOfMemory
  | _ => newOther fromStr e.message

end IOErr

/-! ### Roc's side -/

/-- The tags that the modules' `IOErr` unions declare.  `Other` carries a `Str`, the rest carry
nothing. -/
inductive RocTag
  | alreadyExists | brokenPipe | interrupted | notADirectory | notEmpty | notFound | other
  | outOfMemory | permissionDenied | unsupported
deriving DecidableEq, Repr

/-- The name of a tag in the Roc source. -/
def RocTag.name : RocTag → String
  | alreadyExists => "AlreadyExists"
  | brokenPipe => "BrokenPipe"
  | interrupted => "Interrupted"
  | notADirectory => "NotADirectory"
  | notEmpty => "NotEmpty"
  | notFound => "NotFound"
  | other => "Other"
  | outOfMemory => "OutOfMemory"
  | permissionDenied => "PermissionDenied"
  | unsupported => "Unsupported"

/-- The Roc modules with hosted functions that report an `IOErr`. -/
inductive RocModule
  | cmd | dir | file | path | random
deriving DecidableEq, Repr

/-- `IOErr` of each module, in the order of its declaration. -/
def RocModule.ioErr : RocModule → List RocTag
  | cmd => [.notFound, .permissionDenied, .brokenPipe, .alreadyExists, .interrupted, .unsupported,
      .outOfMemory, .other]
  | dir => [.notFound, .permissionDenied, .alreadyExists, .notADirectory, .notEmpty, .other]
  | file => [.notFound, .permissionDenied, .brokenPipe, .alreadyExists, .interrupted, .unsupported,
      .outOfMemory, .other]
  | path => [.notFound, .permissionDenied, .brokenPipe, .alreadyExists, .interrupted, .unsupported,
      .outOfMemory, .other]
  | random => [.notFound, .permissionDenied, .brokenPipe, .alreadyExists, .interrupted,
      .unsupported, .outOfMemory, .other]

/-- A value of one of the modules' `IOErr` unions. -/
inductive RocIOErr (σ : Type)
  | simple (tag : RocTag)
  | other (msg : σ)
deriving DecidableEq, Repr

/-- Roc's reading of an `IOErr` in module `m`: the discriminant byte picks the tag, and `Other`
takes the payload with it. -/
def RocModule.decodeIOErr {σ : Type} (m : RocModule) (discriminant : UInt8) (payload : Option σ) :
    Option (RocIOErr σ) :=
  match tagAt? RocTag.name m.ioErr discriminant.toNat with
  | some .other => payload.map .other
  | some t => some (.simple t)
  | none => none

/-! ### What the unions promise -/

/-- The tag that names an error kind. -/
def ErrorKind.rocTag? : ErrorKind → Option RocTag
  | .notFound => some .notFound
  | .permissionDenied => some .permissionDenied
  | .alreadyExists => some .alreadyExists
  | .brokenPipe => some .brokenPipe
  | .interrupted => some .interrupted
  | .unsupported => some .unsupported
  | .outOfMemory => some .outOfMemory
  | .notADirectory => some .notADirectory
  | .directoryNotEmpty => some .notEmpty
  | _ => none

/-- The value module `m` should see for `e`: the tag that names `e`'s kind if the union has it,
`Other` with `e`'s message if not. -/
def RocModule.reported (m : RocModule) (e : IoError) : RocIOErr RocStr :=
  match e.kind.rocTag? with
  | some t => if t ∈ m.ioErr then .simple t else .other (.fromStr e.message)
  | none => .other (.fromStr e.message)

end BasicCli
