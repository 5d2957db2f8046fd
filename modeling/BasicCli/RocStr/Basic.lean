import BasicCli.Utf8.Basic

/-!
# `RocStr`

The contents of a `RocStr`: a run of bytes that Roc takes to be UTF-8.  The type itself comes from
the crate `roc_std_new`; what the host relies on is that `from_str` copies the bytes of a Rust
`&str`, which is a Lean `String`.
-/

namespace BasicCli

/-- The bytes of a Rust `&str`, `String` or `Cow<str>`. -/
def strBytes (s : String) : List UInt8 := Utf8.encode s.toList

/-- The contents of a `RocStr`. -/
structure RocStr where
  bytes : List UInt8
deriving DecidableEq, Repr

namespace RocStr

/-- `RocStr::from_str`. -/
def fromStr (s : String) : RocStr := ⟨strBytes s⟩

/-- `RocStr::empty`. -/
def empty : RocStr := ⟨[]⟩

/-- `RocStr::from(std::str::from_utf8_unchecked(bytes))`: nothing looks at the bytes. -/
def fromUtf8Unchecked (bytes : List UInt8) : RocStr := ⟨bytes⟩

end RocStr

end BasicCli
